import Monkey.Proofs.ClearedEvaluation
import Monkey.Proofs.LexicalScoping

namespace Monkey

open Evaluator CallTree

/-- What a session may be given: a source, or a node of a source that has been loaded. -/
inductive Session.Input where
  | source (text : String)
  | node (node : Node) (source : SourceId)

/-- The scopes of the closures in the value that came of a source. -/
def Outcome.scopes : Outcome → List ScopeId
  | .value v => v.scopes
  | _ => []

namespace Session

/-- The session with scopes of ended calls treated so from now on. -/
def releasing (release : Release) (s : Session) : Session := { s with interpreter := { s.interpreter with release } }

/-- Evaluates the input in the root scope. -/
def evalInput (s : Session) : Input → Outcome × Session
  | .source text => s.evalSource text
  | .node node source => s.evalNode node ⟨source, s.root⟩

/-- What comes of the inputs, evaluated one after another, and the session after them. -/
def evalInputs (s : Session) : List Input → List Outcome × Session
  | [] => ([], s)
  | input :: inputs =>
    let (outcome, s) := s.evalInput input
    let (outcomes, s) := s.evalInputs inputs
    (outcome :: outcomes, s)

/-- Two sessions have come to the same outcomes and printed the same, and in all scopes that can be come to from the
scopes `known` before and from the outcomes every name means the same. -/
structure SameAfter (known : ScopeId → Prop) (x y : List Outcome × Session) : Prop where
  outcomes : x.1 = y.1
  printer : x.2.state.printer = y.2.state.printer
  lookups : ∀ id, x.2.state.store.ReachableFrom (fun c => known c ∨ ∃ outcome ∈ x.1, c ∈ outcome.scopes) id →
    ∀ name, x.2.state.store.lookup? name id = y.2.state.store.lookup? name id

end Session

namespace Evaluator

variable {first : Nat} {goal : Goal} {s s' t t' : State}

section Goals

theorem Goal.over_of_root {Q : ScopeId → Prop} (h : ∀ c, goal.Root c → Q c) :
    goal.Over Q ∧ ∀ id ∈ goal.own?, Q id := by
  cases goal with
  | table t pairs site =>
    refine ⟨fun p mem c inside => h c (.inr ⟨p, mem, inside⟩), fun id mem => ?_⟩
    cases mem
    exact h site.scope (.inl rfl)
  | call callee arguments =>
    refine ⟨⟨fun c inside => h c ⟨callee, .head _, inside⟩, fun v mem c inside => h c ⟨v, .tail _ mem, inside⟩⟩, ?_⟩
    exact fun id mem => nomatch mem
  | expression _ site | expressions _ site | statement _ site | statements _ site =>
    refine ⟨trivial, fun id mem => ?_⟩
    cases mem
    exact h site.scope rfl

theorem Goal.Within.root_lt {n : Nat} (within : goal.Within n) {c : ScopeId} (root : goal.Root c) : c < n := by
  cases goal with
  | table t pairs site =>
    rcases root with rfl | ⟨p, mem, inside⟩
    · exact within.1
    · exact within.2 p mem c inside
  | call callee arguments =>
    obtain ⟨v, mem, inside⟩ := root
    rcases List.mem_cons.1 mem with rfl | mem
    · exact within.1 c inside
    · exact within.2 v mem c inside
  | expression _ site | expressions _ site | statement _ site | statements _ site =>
    cases root
    exact within

end Goals

section Ends

variable {P P' : ScopeId → Prop} {release release' release'' : Release} {s'' : State}

/-- The states have printed the same and made as many objects, and in the scopes in `P` every name means the same. -/
structure SameIn (P : ScopeId → Prop) (t t' : State) : Prop where
  printer : t.printer = t'.printer
  objects : t.objects = t'.objects
  lookups : ∀ id, P id → ∀ name, t.store.lookup? name id = t'.store.lookup? name id

/-- From both states, scopes of ended calls treated in one way or the other, the goal comes to the same end or to
none. -/
structure ComesToSame (P : ScopeId → Prop) (goal : Goal) (release : Release) (s : State) (release' : Release)
    (s' : State) : Prop where
  forth : ∀ {r t}, goal.Ends release s r t → ∃ t', goal.Ends release' s' r t' ∧ SameIn P t t'
  back : ∀ {r t'}, goal.Ends release' s' r t' → ∃ t, goal.Ends release s r t ∧ SameIn P t t'

theorem SameIn.symm (h : SameIn P t t') : SameIn P t' t :=
  ⟨h.printer.symm, h.objects.symm, fun id mem name => (h.lookups id mem name).symm⟩

theorem SameIn.trans {t'' : State} (h : SameIn P t t') (h' : SameIn P t' t'') : SameIn P t t'' where
  printer := h.printer.trans h'.printer
  objects := h.objects.trans h'.objects
  lookups id mem name := (h.lookups id mem name).trans (h'.lookups id mem name)

theorem ComesToSame.symm (h : ComesToSame P goal release s release' s') :
    ComesToSame P goal release' s' release s := by
  refine ⟨fun ends => ?_, fun ends => ?_⟩
  · obtain ⟨t, ends', same⟩ := h.back ends
    exact ⟨t, ends', same.symm⟩
  · obtain ⟨t, ends', same⟩ := h.forth ends
    exact ⟨t, ends', same.symm⟩

theorem ComesToSame.trans (h : ComesToSame P goal release s release' s')
    (h' : ComesToSame P goal release' s' release'' s'') : ComesToSame P goal release s release'' s'' := by
  refine ⟨fun ends => ?_, fun ends => ?_⟩
  · obtain ⟨t', ends', same⟩ := h.forth ends
    obtain ⟨t'', ends'', same'⟩ := h'.forth ends'
    exact ⟨t'', ends'', same.trans same'⟩
  · obtain ⟨t', ends', same'⟩ := h'.back ends
    obtain ⟨t, ends'', same⟩ := h.back ends'
    exact ⟨t, ends'', same.trans same'⟩

theorem Onward.sameIn (onward : Onward first s s' t t') (usable : ∀ id, P id → s.Usable s' id) : SameIn P t t' where
  printer := onward.beside.printer
  objects := onward.beside.objects
  lookups id mem name := (onward.keeps.usable (usable id mem)).intact.lookup?_eq name

/-- A goal that may be reached from both states comes to the same from both. -/
theorem AllowedBeside.comesToSame (allowed : AllowedBeside first goal s s') (sound : s'.store.Sound)
    (within : goal.Within s.store.size) (usable : ∀ id, P id → s.Usable s' id) :
    ComesToSame P goal .unreached s .never s' := by
  have within' : goal.Within s'.store.size := allowed.beside.store.size ▸ within
  have paired : PairedCalls first goal s goal s' :=
    ⟨⟨rfl, allowed⟩, ⟨allowed.beside.store.sound, within⟩, sound, within'⟩
  refine ⟨fun ends => ?_, fun ends => ?_⟩
  · obtain ⟨r', t', ends', ⟨_, both⟩, _⟩ :=
      InStep.exists_returns (fun _ _ _ _ h => PairedCalls.inStep h) paired.inStep ends
    obtain ⟨same, onward, _⟩ := endsBeside_iff.1 both
    change r' = _ at same
    subst same
    exact ⟨t', ends', onward.sameIn usable⟩
  · obtain ⟨r, t, ends', ⟨_, both⟩, _⟩ :=
      InStep.exists_returns (fun _ _ _ _ h => (PairedCalls.inStep h).symm) paired.inStep.symm ends
    obtain ⟨same, onward, _⟩ := endsBeside_iff.1 both
    change _ = r at same
    subst same
    exact ⟨t, ends', onward.sameIn usable⟩

/-- A sound state stands beside itself with a scope cleared. What does not reach the scope is live. -/
theorem beside_clear (sound : t.store.Sound) (own : ScopeId) :
    State.Beside t.store.size { t with store := t.store.clear own } t ∧
      ∀ id < t.store.size, ¬ t.store.Reachable id own →
        State.Live t.store.size { t with store := t.store.clear own } t id := by
  obtain ⟨store, usable, _⟩ := sound.beside.clear own
  refine ⟨⟨rfl, rfl, store⟩, fun id lt apart => ⟨?_, fun young => absurd lt (Nat.not_lt.2 young)⟩⟩
  exact usable ⟨lt, t.store.intact_self id⟩ apart

/-- A goal that does not begin with a scope comes to the same whether that is cleared or not, however the scopes of the
calls to come are treated. -/
theorem comesToSame_clear {own : ScopeId} (sound : t.store.Sound) (within : goal.Within t.store.size)
    (apart : ∀ c, goal.Root c → ¬ t.store.Reachable c own) (release release' : Release) :
    ComesToSame (fun id => id < t.store.size ∧ ¬ t.store.Reachable id own) goal release t release'
      { t with store := t.store.clear own } := by
  let P : ScopeId → Prop := fun id => id < t.store.size ∧ ¬ t.store.Reachable id own
  let cleared : State := { t with store := t.store.clear own }
  have soundCleared : cleared.store.Sound := sound.clear
  have size : cleared.store.size = t.store.size := t.store.size_clear own
  have withinCleared : goal.Within cleared.store.size := size.symm ▸ within
  -- A state stands beside itself.
  have self (u : State) (soundSelf : u.store.Sound) (withinSelf : goal.Within u.store.size)
      (same : u.store.size = t.store.size) : ComesToSame P goal .unreached u .never u := by
    have live (id : ScopeId) (lt : id < u.store.size) : u.Live u.store.size u id :=
      ⟨⟨lt, u.store.intact_self id⟩, fun young => absurd lt (Nat.not_lt.2 young)⟩
    obtain ⟨holds, own⟩ := Goal.over_of_root fun c root => live c (withinSelf.root_lt root)
    have allowed : AllowedBeside u.store.size goal u u :=
      ⟨⟨rfl, rfl, soundSelf.beside⟩, fun id mem => (own id mem).toUsable, holds⟩
    exact allowed.comesToSame soundSelf withinSelf fun id mem => (live id (same ▸ mem.1)).toUsable
  have across : ComesToSame P goal .unreached cleared .never t := by
    obtain ⟨beside, live⟩ := beside_clear sound own
    obtain ⟨holds, own⟩ := Goal.over_of_root fun c root => live c (within.root_lt root) (apart c root)
    have allowed : AllowedBeside t.store.size goal cleared t := ⟨beside, fun id mem => (own id mem).toUsable, holds⟩
    exact allowed.comesToSame sound withinCleared fun id mem => (live id mem.1 mem.2).toUsable
  have left : ComesToSame P goal release t .never t := by
    cases release with
    | unreached => exact self t sound within rfl
    | never => exact (self t sound within rfl).symm.trans (self t sound within rfl)
  have right : ComesToSame P goal .never t release' cleared := by
    cases release' with
    | unreached => exact across.symm
    | never => exact across.symm.trans (self cleared soundCleared withinCleared size)
  exact left.trans right

end Ends

section Runs

variable {α : Type} {own : Option ScopeId} {n : Nat} {Q : ScopeId → Prop} {site : Site}

/-- With the same budget the runs come to the same end, or neither comes to an end. -/
theorem run_beside (i : Interpreter) {m : Evaluator α} {value : (ScopeId → Prop) → α → Prop} {within : Nat → α → Prop}
    (blind : Blind first own Q m value) (stays : Stays own n m within) (beside : s.Beside first s')
    (sound : s'.store.Sound) (enough : n ≤ s.store.size) (usable : ∀ id ∈ own, s.Usable s' id)
    (held : ∀ c, Q c → s.Live first s' c) :
    Option.Rel (fun x y => EndsBeside first value s s' x.1 x.2 y.1 y.2)
      (Interpreter.run { i with release := .unreached } m s) (Interpreter.run { i with release := .never } m s') := by
  have left := stays s beside.store.sound enough
  have right := stays s' sound (beside.store.size ▸ enough)
  have inStep : (m s).InStep (PairedCalls first) (CallsEndBeside first) (m s') (EndsBeside first value s s') :=
    ((blind s s' beside usable held).ensures left right).mono (fun _ _ _ _ h => h) (fun _ _ _ _ _ _ _ _ h => h)
      fun _ _ _ _ h => h.1
  exact InStep.run_related (fun _ _ _ _ h => PairedCalls.inStep h) inStep i.budget

/-- The values are the same, and hold in the states that the runs have come to what values may. -/
def ValuesBeside (first : Nat) (s s' : State) (x y : Option Value × State) : Prop :=
  x.1 = y.1 ∧ Onward first s s' x.2 y.2 ∧ ∀ v ∈ x.1, v.Over (x.2.Live first y.2)

theorem map_beside {f : Except Signal α → Option Value} {value : (ScopeId → Prop) → α → Prop}
    {x y : Option (Except Signal α × State)}
    (ends : Option.Rel (fun x y => EndsBeside first value s s' x.1 x.2 y.1 y.2) x y)
    (values : ∀ (Q : ScopeId → Prop) r, EndOver value Q r → ∀ v ∈ f r, v.Over Q) :
    Option.Rel (ValuesBeside first s s') (x.map fun (r, t) => (f r, t)) (y.map fun (r, t) => (f r, t)) := by
  cases ends with
  | none => exact .none
  | some h =>
    obtain ⟨same, onward, holds⟩ := endsBeside_iff.1 h
    exact .some ⟨congrArg f same.symm, onward, values _ _ holds⟩

theorem over_programValue {r : Except Signal (Option Value)} (h : EndOver (fun Q v => ∀ w ∈ v, Value.Over Q w) Q r) :
    ∀ v ∈ programValue r, v.Over Q := by
  rcases r with (⟨id, message⟩ | ⟨id, w⟩) | v
  · intro v mem
    cases mem
    exact fun _ inside => nomatch inside
  · intro v mem
    cases mem
    exact h
  · exact h

theorem over_settle {r : Except Signal (Option Value)} (h : EndOver (fun Q v => ∀ w ∈ v, Value.Over Q w) Q r) :
    ∀ v ∈ settle r, v.Over Q := by
  rcases r with (⟨id, message⟩ | ⟨id, w⟩) | v
  · intro v mem
    cases mem
    exact fun _ inside => nomatch inside
  · intro v mem
    cases mem
    exact h
  · exact h

/-- A node has the same value, or in neither state one. -/
theorem evalNode_beside (i : Interpreter) (node : Node) (site : Site) (beside : s.Beside first s')
    (sound : s'.store.Sound) (usable : s.Usable s' site.scope) :
    Option.Rel (ValuesBeside first s s') (Interpreter.evalNode { i with release := .unreached } node site s)
      (Interpreter.evalNode { i with release := .never } node site s') := by
  have own : ∀ id ∈ some site.scope, s.Usable s' id := by
    intro id mem
    cases mem
    exact usable
  have enough : site.scope + 1 ≤ s.store.size := usable.lt
  have inside := Nat.lt_succ_self site.scope
  have nothing : ∀ c, False → s.Live first s' c := fun _ => False.elim
  cases node with
  | program p =>
    have runs := run_beside i (blind_block none p.statements nofun)
      (stays_block none p.statements inside nofun) beside sound enough own nothing
    rw [Interpreter.evalNode, Interpreter.evalNode, Interpreter.evalProgram_eq, Interpreter.evalProgram_eq]
    exact map_beside runs fun _ _ => over_programValue
  | statement st =>
    have runs := run_beside i (blind_statement st) (stays_statement st inside) beside sound enough own nothing
    exact map_beside runs fun _ _ => over_settle
  | block b =>
    have runs := run_beside i (blind_block none b.statements nofun)
      (stays_block none b.statements inside nofun) beside sound enough own nothing
    exact map_beside runs fun _ _ => over_settle
  | expression e =>
    have blind : Blind first (some site.scope) (fun _ => False) (some <$> expression e site) fun Q v =>
        ∀ w ∈ v, Value.Over Q w := by
      refine blind_bind (blind_expression e) fun Q' v _ holds => blind_pure fun _ le w mem => ?_
      cases mem
      exact holds.mono le
    have stays : Stays (some site.scope) (site.scope + 1) (some <$> expression e site) fun _ _ => True :=
      stays_bind (stays_expression e inside) fun _ _ _ _ => stays_pure fun _ _ => trivial
    exact map_beside (run_beside i blind stays beside sound enough own nothing) fun _ _ => over_settle

end Runs

end Evaluator

namespace Session

variable {first : Nat} {s s' : Session} {known : ScopeId → Prop}

/-- The sessions differ in how the scopes of ended calls are treated and in scopes that nobody can come to. -/
structure Beside (first : Nat) (s s' : Session) : Prop where
  budget : s.interpreter.budget = s'.interpreter.budget
  release : s.interpreter.release = .unreached
  release' : s'.interpreter.release = .never
  root : s.root = s'.root
  sources : s.sources = s'.sources
  state : s.state.Beside first s'.state
  sound : s'.state.store.Sound
  usable : s.state.Usable s'.state s.root

/-- The sessions have come to the same, from sessions in which the scopes `known` were usable. -/
structure StillBeside (first : Nat) (known : ScopeId → Prop) (x y : Outcome × Session) : Prop where
  outcome : x.1 = y.1
  beside : x.2.Beside first y.2
  known : ∀ id, (known id ∨ id ∈ x.1.scopes) → x.2.state.Usable y.2.state id

theorem Beside.evalNode (h : Beside first s s') (usable : ∀ id, known id → s.state.Usable s'.state id) (node : Node)
    (source : SourceId) :
    StillBeside first known (s.evalNode node ⟨source, s.root⟩) (s'.evalNode node ⟨source, s'.root⟩) := by
  have left : s.interpreter = ⟨s'.interpreter.budget, .unreached⟩ := by
    rw [← h.budget, ← h.release]
  have right : s'.interpreter = ⟨s'.interpreter.budget, .never⟩ := by
    rw [← h.release']
  have sound : s'.Sound := ⟨h.sound, by rw [← h.root, ← h.state.store.size]; exact h.usable.lt⟩
  have later : (s'.evalNode node ⟨source, s'.root⟩).2.state.store.Sound := (Session.Sound.evalNode sound sound.2).1
  have runs := evalNode_beside s'.interpreter node ⟨source, s.root⟩ h.state h.sound h.usable
  rw [← left, ← right] at runs
  rw [← h.root] at later ⊢
  unfold Session.evalNode at later ⊢
  generalize s.interpreter.evalNode node ⟨source, s.root⟩ s.state = x at runs later ⊢
  generalize s'.interpreter.evalNode node ⟨source, s.root⟩ s'.state = y at runs later ⊢
  cases runs with
  | none =>
    refine ⟨rfl, h, fun id mem => ?_⟩
    rcases mem with mem | mem
    · exact usable id mem
    · cases mem
  | @some x y ends =>
    obtain ⟨v, t⟩ := x
    obtain ⟨w, t'⟩ := y
    obtain ⟨same, onward, holds⟩ := ends
    change v = w at same
    subst same
    have after (soundEnd : t'.store.Sound) : Beside first { s with state := t } { s' with state := t' } :=
      ⟨h.budget, h.release, h.release', h.root, h.sources, onward.beside, soundEnd, onward.keeps.usable h.usable⟩
    cases v with
    | none =>
      refine ⟨rfl, after later, fun id mem => ?_⟩
      rcases mem with mem | mem
      · exact onward.keeps.usable (usable id mem)
      · cases mem
    | some v =>
      refine ⟨rfl, after later, fun id mem => ?_⟩
      rcases mem with mem | mem
      · exact onward.keeps.usable (usable id mem)
      · exact (holds v rfl id mem).toUsable

theorem Beside.evalInput (h : Beside first s s') (usable : ∀ id, known id → s.state.Usable s'.state id)
    (input : Input) : StillBeside first known (s.evalInput input) (s'.evalInput input) := by
  cases input with
  | source text =>
    change StillBeside first known (s.evalSource text) (s'.evalSource text)
    by_cases clean : (parse text).errors = []
    · rw [evalSource_of_clean s clean, evalSource_of_clean s' clean]
      have loaded : Beside first s.load.2 s'.load.2 :=
        ⟨h.budget, h.release, h.release', h.root, congrArg (· + 1) h.sources, h.state, h.sound, h.usable⟩
      have number : s'.load.1 = s.load.1 := h.sources.symm
      rw [number]
      exact loaded.evalNode usable (.program (parse text).program) s.load.1
    · rw [evalSource_of_errors s clean, evalSource_of_errors s' clean]
      refine ⟨rfl, h, fun id mem => ?_⟩
      rcases mem with mem | mem
      · exact usable id mem
      · cases mem
  | node node source => exact h.evalNode usable node source

theorem Beside.evalInputs (h : Beside first s s') (usable : ∀ id, known id → s.state.Usable s'.state id)
    (inputs : List Input) : SameAfter known (s.evalInputs inputs) (s'.evalInputs inputs) := by
  induction inputs generalizing s s' known with
  | nil =>
    refine ⟨rfl, h.state.printer, ?_⟩
    rintro id ⟨root, begins | ⟨_, mem, _⟩, reachable⟩ name
    · have intact := (usable root begins).intact
      exact Store.Intact.lookup?_eq (fun other later => intact other (reachable.trans later)) name
    · cases mem
  | cons input inputs ih =>
    obtain ⟨outcome, beside, known'⟩ := h.evalInput usable input
    obtain ⟨outcomes, printer, lookups⟩ := ih beside known'
    rw [Session.evalInputs, Session.evalInputs]
    refine ⟨?_, printer, ?_⟩
    · dsimp only
      rw [outcome, outcomes]
    · rintro id ⟨root, begins, reachable⟩
      refine lookups id ⟨root, ?_, reachable⟩
      rcases begins with old | ⟨x, mem, inside⟩
      · exact .inl (.inl old)
      · rcases List.mem_cons.1 mem with rfl | mem
        · exact .inl (.inr inside)
        · exact .inr ⟨x, mem, inside⟩

end Session

namespace Evaluator

variable {s t u : State} {c : Closure} {arguments : List Value} {own : ScopeId}

/-- Nothing from before the call in the scope `own` comes to that scope any more, and whatever does not begin with it
comes to the same with the scope cleared. -/
structure Forgotten (own : ScopeId) (t : State) : Prop where
  older : ∀ id < own, ¬ t.store.Reachable id own
  values : ∀ v : Value, v.Within own → ∀ c ∈ v.scopes, ¬ t.store.Reachable c own
  later : ∀ (goal : Goal) (release release' : Release), goal.Within t.store.size →
    (∀ c, goal.Root c → ¬ t.store.Reachable c own) →
      ComesToSame (fun id => id < t.store.size ∧ ¬ t.store.Reachable id own) goal release t release'
        { t with store := t.store.clear own }

/-- In a sound state a scope that no older one holds, nor anything that older ones hold, is forgotten. -/
theorem forgotten_of_confined (sound : t.store.Sound) (confined : t.store.Confined own) : Forgotten own t where
  older _ old := confined.not_reachable old
  values _ within c mem := confined.not_reachable (within c mem)
  later _ release release' within apart := comesToSame_clear sound within apart release release'

/-- The end of the body of a call, where the scopes of the calls inside have been cleared: what is held is noted. -/
theorem noted_of_body {r : Except Signal (Option Value)} (sound : s.store.Sound)
    (within : (Goal.call (.function c) arguments).Within s.store.size)
    (body : (bodyGoal c.function s.store.size).Ends .unreached (s.enter c arguments) r t) :
    t.store.Noted s.store.size ∧
      ∀ c ∈ outcomeScopes (callOutcome r), s.store.size ≤ c → t.store.isCaptured c = true := by
  have live (id : ScopeId) (lt : id < s.store.size) : s.Live s.store.size s id :=
    ⟨⟨lt, s.store.intact_self id⟩, fun young => absurd lt (Nat.not_lt.2 young)⟩
  have around := live c.scope (within.1 _ (Value.mem_scopes_function.2 rfl))
  obtain ⟨store, _, here⟩ := sound.beside.enter around fun _ v bound d inside =>
    live d (within.2 v (mem_of_bindParameters bound) d inside)
  have size : (s.enter c arguments).store.size = s.store.size + 1 := s.store.size_enter _ _
  have inside : s.store.size < (s.enter c arguments).store.size := by omega
  have allowed : AllowedBeside s.store.size (bodyGoal c.function s.store.size) (s.enter c arguments)
      (s.enter c arguments) := by
    refine ⟨⟨rfl, rfl, store⟩, fun id mem => ?_, trivial⟩
    cases mem
    exact here
  have paired : PairedCalls s.store.size (bodyGoal c.function s.store.size) (s.enter c arguments)
      (bodyGoal c.function s.store.size) (s.enter c arguments) :=
    ⟨⟨rfl, allowed⟩, ⟨store.sound, inside⟩, store.sound, inside⟩
  obtain ⟨r', t', _, ⟨_, ends⟩, _⟩ := InStep.exists_returns (fun _ _ _ _ h => PairedCalls.inStep h) paired.inStep body
  obtain ⟨_, onward, holds⟩ := endsBeside_iff.1 ends
  refine ⟨onward.beside.store.noted, fun d mem => ?_⟩
  exact (endOver_iff.1 (endOver_callOutcome holds) d mem).captured

end Evaluator

/-- A session that clears the scopes of ended calls and one that never does come to the same outcomes on any inputs,
print the same and find the same under every name in every scope that can be come to. For when a call has ended in an
error, or in a value that its scope is not reachable from, then no scope that was there before and no value from before
reaches that scope, and whatever does not begin with it comes to the same with it cleared; and then, and only then, it
is cleared. -/
theorem clearing_is_invisible :
    (∀ (s : Session) (inputs : List Session.Input), s.Sound →
      Session.SameAfter (· < s.state.store.size) ((s.releasing .unreached).evalInputs inputs)
        ((s.releasing .never).evalInputs inputs)) ∧
    ∀ (release : Release) (s u : State) (c : Closure) (arguments : List Value) (outcome : Except Signal Value),
      s.store.Sound → (Goal.call (.function c) arguments).Within s.store.size →
      c.function.parameters.length = arguments.length →
      (Goal.call (.function c) arguments).Ends release s outcome u →
        ∃ r t, (bodyGoal c.function s.store.size).Ends release (s.enter c arguments) r t ∧
          outcome = callOutcome r ∧ u = t.leave release s.store.size outcome ∧
          ((∃ x, outcome = .error x) ∨ (∀ d ∈ outcomeScopes outcome, ¬ t.store.Reachable d s.store.size) →
            Forgotten s.store.size t ∧
              (release = .unreached → u = { t with store := t.store.clear s.store.size })) ∧
          (∀ v, outcome = .ok v → (∃ d ∈ v.scopes, t.store.Reachable d s.store.size) → u = t) := by
  refine ⟨fun s inputs sound => ?_, fun release s u c arguments outcome sound within count ends => ?_⟩
  · have usable (id : ScopeId) (lt : id < s.state.store.size) : s.state.Usable s.state id :=
      ⟨lt, s.state.store.intact_self id⟩
    have beside : Session.Beside s.state.store.size (s.releasing .unreached) (s.releasing .never) :=
      ⟨rfl, rfl, rfl, rfl, rfl, ⟨rfl, rfl, sound.1.beside⟩, sound.1, usable s.root sound.2⟩
    exact beside.evalInputs usable inputs
  · obtain ⟨r, t, body, rfl, rfl⟩ := (ends_call_iff count).1 ends
    have around : c.scope < s.store.size := within.1 _ (Value.mem_scopes_function.2 rfl)
    have soundEntered := sound_enter sound around within.2
    have size : (s.enter c arguments).store.size = s.store.size + 1 := s.store.size_enter _ _
    have inside : (bodyGoal c.function s.store.size).Within (s.enter c arguments).store.size := by
      rw [size]
      exact Nat.lt_succ_self _
    obtain ⟨frame, soundEnd, held⟩ := frame_of_returns soundEntered inside body
    have confined : t.store.Confined s.store.size := (frame_of_body around frame).confined sound
    have withinEnd := endWithin_callOutcome held
    refine ⟨r, t, body, rfl, rfl, fun unreached => ?_, fun v value reached => ?_⟩
    · refine ⟨forgotten_of_confined soundEnd confined, ?_⟩
      rintro rfl
      have apart : ∀ d ∈ outcomeScopes (callOutcome r), ¬ t.store.Reachable d s.store.size := by
        rcases unreached with ⟨x, failed⟩ | apart
        · rw [failed, outcomeScopes_error failed]
          exact fun _ mem => nomatch mem
        · exact apart
      exact leave_of_apart soundEnd confined withinEnd apart
    · cases release with
      | never => rfl
      | unreached =>
        obtain ⟨noted, captured⟩ := noted_of_body sound within body
        rw [value] at withinEnd captured ⊢
        exact leave_of_reached soundEnd confined noted (Nat.le_refl _) withinEnd captured reached

/-- A call whose scope is captured by a closure that does not outlive it. -/
theorem clearing_is_invisible_captured :
    let s : State := { store := (Store.enter {} none {}).2, printer := { target := .silent } }
    let session : Session := { interpreter := { budget := 100 }, state := s, root := 0 }
    let x : Identifier := ⟨"x", .origin⟩
    let g : Identifier := ⟨"g", .origin⟩
    let thunk : Expr := .function [] (.mk [.expr (.name x)] .origin) .origin
    let f : Function := ⟨0, [x], .mk [.bind g thunk .origin, .expr (.call (.name g) [] .origin)] .origin, .origin⟩
    let e : Expr := .call (.function f.parameters f.body f.place) [.int 3 .origin] .origin
    let inputs : List Session.Input := [.node (.expression e) 0, .node (.expression e) 0]
    (session.Sound ∧ ((session.releasing .unreached).evalInputs inputs).1 = [.value (.int 3), .value (.int 3)] ∧
        Session.SameAfter (· < s.store.size) ((session.releasing .unreached).evalInputs inputs)
          ((session.releasing .never).evalInputs inputs)) ∧
      s.store.Sound ∧ (Goal.call (.function ⟨f, 0⟩) [.int 3]).Within s.store.size ∧
        f.parameters.length = [Value.int 3].length ∧
        ∃ u, (Goal.call (.function ⟨f, 0⟩) [.int 3]).Ends .unreached s (.ok (.int 3)) u ∧
          ∃ t, Forgotten s.store.size t ∧ t.store.isCaptured s.store.size = true ∧
            u = { t with store := t.store.clear s.store.size } := by
  intro s session x g thunk f e inputs
  have sound : session.Sound := Session.sound_new .silent
  obtain ⟨sessions, calls⟩ := clearing_is_invisible
  have start : (Store.enter {} none {}).2 = ⟨#[{ bindings := Std.TreeMap.map (fun _ v => .ofValue 0 v) {} }]⟩ := rfl
  have outcomes : ((session.releasing .unreached).evalInputs inputs).1 = [.value (.int 3), .value (.int 3)] := by
    simp only [session, s, start]
    cbv
  have within : (Goal.call (.function ⟨f, 0⟩) [.int 3]).Within s.store.size := by
    refine ⟨Value.within_function.2 (by decide), fun v mem => ?_⟩
    cases List.mem_singleton.1 mem
    exact Value.within_int
  have called : (((perform .unreached (.call (.function ⟨f, 0⟩) [.int 3]) s).run (perform .unreached) 100).any
      fun p => p.1.toOption.any (Value.int 3).identical) = true := by
    decide +kernel
  obtain ⟨⟨r, u⟩, run, three⟩ := (Option.any_eq_true _ _).1 called
  obtain rfl : r = .ok (.int 3) := by
    cases r with
    | ok w => exact congrArg _ (Value.identical_int_iff.1 three)
    | error => cases three
  have ends : (Goal.call (.function ⟨f, 0⟩) [.int 3]).Ends .unreached s (.ok (.int 3)) u :=
    exists_run_iff_returns.1 ⟨100, run⟩
  have inBody : (((perform .unreached (bodyGoal f 1) (s.enter ⟨f, 0⟩ [.int 3])).run (perform .unreached) 100).any
      fun p => p.2.store.isCaptured 1) = true := by
    decide +kernel
  obtain ⟨⟨_, t⟩, runBody, captured⟩ := (Option.any_eq_true _ _).1 inBody
  refine ⟨⟨sound, outcomes, sessions session inputs sound⟩, sound.1, within, rfl, u, ends, ?_⟩
  obtain ⟨_, _, body, _, _, forgotten, _⟩ := calls .unreached s u ⟨f, 0⟩ [.int 3] _ sound.1 within rfl ends
  obtain ⟨-, rfl⟩ := CallTree.Returns.unique (exists_run_iff_returns.1 ⟨100, runBody⟩) body
  have apart : ∀ d ∈ outcomeScopes (.ok (.int 3)), ¬ t.store.Reachable d s.store.size :=
    fun _ mem => absurd mem List.not_mem_nil
  obtain ⟨gone, cleared⟩ := forgotten (.inr apart)
  exact ⟨t, gone, captured, cleared rfl⟩

end Monkey
