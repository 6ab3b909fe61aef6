import Monkey.Proofs.CarriedRuns

namespace Monkey

open Evaluator CallTree

namespace Evaluator

/-- The same kind of end, with values that are carried. -/
inductive CarriesOutcome (ρ : Renaming) (n : Nat) : Except Signal Value → Except Signal Value → Prop
  | value {v w : Value} : ρ.Carries n v w → CarriesOutcome ρ n (.ok v) (.ok w)
  | signal {x y : Signal} : ρ.CarriesSignal n x y → CarriesOutcome ρ n (.error x) (.error y)

/-- When a run that began with the roots has ended, the scope is reachable from a root or from the value. -/
def StillReachable (roots : ScopeId → Prop) (r : Except Signal Value) (t : State) : ScopeId → Prop :=
  t.store.ReachableFrom fun c => roots c ∨ c ∈ outcomeScopes r

/-- Two runs that began with the roots have come to the same end but for the numbers of scopes and objects. -/
structure SameEnd (ρ : Renaming) (roots : ScopeId → Prop) (r : Except Signal Value) (t : State)
    (r' : Except Signal Value) (t' : State) : Prop where
  outcome : CarriesOutcome ρ t.objects r r'
  printer : t.printer = t'.printer
  outer : ∀ a b, ρ.CarriesScope a b → Option.Rel ρ.CarriesScope (t.store.outer? a) (t'.store.outer? b)
  bound : ∀ a b (name : String), ρ.CarriesScope a b →
    Option.Rel (ρ.Carries t.objects) (t.store.bound? a name) (t'.store.bound? b name)
  /-- Each reachable scope of the one is carried to a reachable scope of the other, and the other way round. -/
  left : ∀ a, StillReachable roots r t a → ∃ b, ρ.CarriesScope a b ∧ StillReachable roots r' t' b
  right : ∀ b, StillReachable roots r' t' b → ∃ a, ρ.CarriesScope a b ∧ StillReachable roots r t a

/-- The evaluation comes to an end from both states or from neither. The ends are the same up to the renaming that
keeps all scopes that are reachable from the roots. -/
structure EndsAlike (release : Release) (m : Evaluator Value) (roots : ScopeId → Prop) (s s' : State) : Prop where
  finishes : (∃ r t, Returns (perform release) (m s) r t) ↔ ∃ r' t', Returns (perform release) (m s') r' t'
  same : ∀ {r t r' t'}, Returns (perform release) (m s) r t → Returns (perform release) (m s') r' t' →
    SameEnd (.keeping (s.store.ReachableFrom roots) s s') roots r t r' t'

end Evaluator

section Ends

variable {ρ : Renaming} {n : Nat} {roots : ScopeId → Prop} {r r' : Except Signal Value} {t t' : State}

theorem carriesOutcome_of_carriesEnd (h : ρ.CarriesEnd n (fun k v w => ρ.Carries k v w) r t r' t') :
    CarriesOutcome ρ t.objects r r' := by
  cases r with
  | ok v => cases r' with
    | ok w => exact .value h.2.2
    | error => exact h.elim
  | error x => cases r' with
    | ok => exact h.elim
    | error y => exact .signal h.2.2

theorem outcomeScopes_related (h : CarriesOutcome ρ n r r') :
    List.Forall₂ ρ.CarriesScope (outcomeScopes r) (outcomeScopes r') := by
  cases h with
  | value carried => exact carried.scopes
  | signal signals => cases signals with
    | error => exact .nil
    | ret _ carried => exact carried.scopes

/-- What is still reachable at the one end is carried to what is at the other. -/
theorem sameEnd_of_carriesEnd (h : ρ.CarriesEnd n (fun k v w => ρ.Carries k v w) r t r' t')
    (kept : ∀ c, roots c → ρ.CarriesScope c c) : SameEnd ρ roots r t r' t' := by
  have outcome := carriesOutcome_of_carriesEnd h
  have scopes := outcomeScopes_related outcome
  obtain ⟨printer, _, store⟩ := carriesState_of_carriesEnd h
  refine ⟨outcome, printer, fun _ _ => store.outer, fun _ _ _ => store.bound, fun a still => ?_, fun b still => ?_⟩
  · refine still.transfer store.link fun root begins => ?_
    rcases begins with old | new
    · exact ⟨root, .inl old, kept root old⟩
    · obtain ⟨root', mem, scope⟩ := exists_related scopes new
      exact ⟨root', .inr mem, scope⟩
  · refine still.transfer (R := fun b a => ρ.CarriesScope a b) store.link_of_carried fun root begins => ?_
    rcases begins with old | new
    · exact ⟨root, .inl old, kept root old⟩
    · obtain ⟨root', mem, scope⟩ := exists_related (List.Forall₂.flip scopes) new
      exact ⟨root', .inr mem, scope⟩

end Ends

section Runs

variable {release : Release} {s s' : State}

/-- The states agree on what is reachable from the roots, and both have it. -/
structure AgreeFrom (roots : ScopeId → Prop) (s s' : State) : Prop where
  left : s.Sound
  right : s'.Sound
  printer : s.printer = s'.printer
  inside : ∀ c, roots c → c < s.store.size ∧ c < s'.store.size
  agree : ∀ id, s.store.ReachableFrom roots id → s.store.AgreesAt s'.store id

theorem AgreeFrom.lt_size {roots : ScopeId → Prop} {id : ScopeId} (h : AgreeFrom roots s s')
    (reachable : s.store.ReachableFrom roots id) : id < s.store.size ∧ id < s'.store.size := by
  obtain ⟨root, begins, links⟩ := reachable
  obtain ⟨left, right⟩ := h.inside root begins
  -- The other state has the same way to the scope, so the scope is there as well.
  have links' := links.of_agrees fun id links => h.agree id ⟨root, begins, links⟩
  exact ⟨h.left.store.lt_of_reachable links left, h.right.store.lt_of_reachable links' right⟩

theorem AgreeFrom.carriesScope {roots : ScopeId → Prop} {c : ScopeId} (h : AgreeFrom roots s s') (root : roots c) :
    (Renaming.keeping (s.store.ReachableFrom roots) s s').CarriesScope c c :=
  have reachable : s.store.ReachableFrom roots c := ⟨c, root, .refl⟩
  .inl ⟨reachable, (h.lt_size reachable).1, (h.lt_size reachable).2, rfl⟩

theorem AgreeFrom.sideBySide {goal : Goal} (h : AgreeFrom goal.Root s s') (within : goal.Within s.store.size)
    (within' : goal.Within s'.store.size) (made : goal.Made s.objects) (made' : goal.Made s'.objects) :
    SideBySide (.keeping (s.store.ReachableFrom goal.Root) s s') goal s goal s' where
  states := by
    refine Renaming.carriesState_keeping h.left h.right h.printer (fun _ => h.lt_size) ?_ h.agree
    rintro id next ⟨root, begins, links⟩ link
    exact ⟨root, begins, links.tail link⟩
  goals := Renaming.carriesGoal_self made made' fun _ => h.carriesScope
  left := ⟨h.left.store, within⟩
  right := ⟨h.right.store, within'⟩

/-- Where each end of the one run comes with an end of the other that it is carried to, the runs end alike. -/
theorem AgreeFrom.endsAlike {m : Evaluator Value} {roots : ScopeId → Prop} (h : AgreeFrom roots s s')
    (forth : ∀ r t, Returns (perform release) (m s) r t → ∃ r' t', Returns (perform release) (m s') r' t' ∧
      Renaming.CarriesEnd (.keeping (s.store.ReachableFrom roots) s s') s.objects
        (fun k => Renaming.Carries (.keeping (s.store.ReachableFrom roots) s s') k) r t r' t')
    (back : ∀ r' t', Returns (perform release) (m s') r' t' → ∃ r t, Returns (perform release) (m s) r t) :
    EndsAlike release m roots s s' := by
  refine ⟨⟨?_, ?_⟩, fun ends ends' => ?_⟩
  · rintro ⟨r, t, ends⟩
    obtain ⟨r', t', ends', _⟩ := forth r t ends
    exact ⟨r', t', ends'⟩
  · rintro ⟨r', t', ends'⟩
    exact back r' t' ends'
  · obtain ⟨r', t', ends'', carried⟩ := forth _ _ ends
    obtain ⟨rfl, rfl⟩ := ends'.unique ends''
    exact sameEnd_of_carriesEnd carried fun _ => h.carriesScope

theorem AgreeFrom.expression {e : Expr} {site : Site} (h : AgreeFrom (Goal.expression e site).Root s s') :
    EndsAlike release (perform release (.expression e site)) (Goal.expression e site).Root s s' := by
  obtain ⟨left, right⟩ := h.inside site.scope rfl
  have beside := h.sideBySide left right trivial trivial
  refine h.endsAlike (fun r t ends => ?_) fun r' t' ends' => ?_
  · obtain ⟨r', t', ends', both⟩ := beside.exists_ends ends
    exact ⟨r', t', ends', both.ends⟩
  · obtain ⟨r, t, ends, _⟩ := beside.exists_ends_of_right ends'
    exact ⟨r, t, ends⟩

theorem AgreeFrom.call {callee : Value} {arguments : List Value} (h : AgreeFrom (Goal.call callee arguments).Root s s')
    (made : ∀ v ∈ callee :: arguments, v.Made s.objects ∧ v.Made s'.objects) :
    EndsAlike release (perform release (.call callee arguments)) (Goal.call callee arguments).Root s s' := by
  have inside (v : Value) (mem : v ∈ callee :: arguments) : v.Within s.store.size ∧ v.Within s'.store.size :=
    ⟨fun c scope => (h.inside c ⟨v, mem, scope⟩).1, fun c scope => (h.inside c ⟨v, mem, scope⟩).2⟩
  have left : (Goal.call callee arguments).Within s.store.size :=
    ⟨(inside callee (.head _)).1, fun v mem => (inside v (.tail _ mem)).1⟩
  have right : (Goal.call callee arguments).Within s'.store.size :=
    ⟨(inside callee (.head _)).2, fun v mem => (inside v (.tail _ mem)).2⟩
  have beside := h.sideBySide left right (fun v mem => (made v mem).1) fun v mem => (made v mem).2
  refine h.endsAlike (fun r t ends => ?_) fun r' t' ends' => ?_
  · obtain ⟨r', t', ends', both⟩ := beside.exists_ends ends
    exact ⟨r', t', ends', both.ends⟩
  · obtain ⟨r, t, ends, _⟩ := beside.exists_ends_of_right ends'
    exact ⟨r, t, ends⟩

/-- What is bound in a scope does not matter where the scope is not reachable. -/
theorem agreeFrom_bind {roots : ScopeId → Prop} {own : ScopeId} {name : String} {v : Value} (sound : s.Sound)
    (inside : ∀ c, roots c → c < s.store.size) (value : s.CanHold v) (apart : ¬ s.store.ReachableFrom roots own) :
    AgreeFrom roots s { s with store := s.store.bind own name v } where
  left := sound
  right := sound.bind value
  printer := rfl
  inside c root := by
    have lt := inside c root
    exact ⟨lt, by rwa [Store.size_bind]⟩
  agree id reachable := by
    have other : id ≠ own := fun same => apart (same ▸ reachable)
    refine ⟨(s.store.outer?_bind own id name v).symm, fun name' => ?_⟩
    rw [Store.bound?_bind, if_neg fun hits => other hits.1]

end Runs

/-- Two states that agree on all scopes reachable from that of an expression, or from the callee and the arguments of a
call, have it end alike: from both or from neither, with the same result and the same text printed, and with the same
in all scopes that are then reachable, but for the numbers of what was made meanwhile. So a call comes to the same
whatever is bound to whichever name in a scope that is not reachable from the callee and the arguments, be it the scope
of the caller. -/
theorem scoping_is_lexical (release : Release) (s : State) :
    (∀ (s' : State) (e : Expr) (site : Site), AgreeFrom (Goal.expression e site).Root s s' →
      EndsAlike release (perform release (.expression e site)) (Goal.expression e site).Root s s') ∧
    (∀ (s' : State) (callee : Value) (arguments : List Value), AgreeFrom (Goal.call callee arguments).Root s s' →
      (∀ v ∈ callee :: arguments, v.Made s.objects ∧ v.Made s'.objects) →
        EndsAlike release (perform release (.call callee arguments)) (Goal.call callee arguments).Root s s') ∧
    ∀ (callee : Value) (arguments : List Value) (own : ScopeId) (name : String) (v : Value), s.Sound →
      (∀ w ∈ v :: callee :: arguments, s.CanHold w) → ¬ s.store.ReachableFrom (Goal.call callee arguments).Root own →
        EndsAlike release (perform release (.call callee arguments)) (Goal.call callee arguments).Root s
          { s with store := s.store.bind own name v } := by
  refine ⟨fun s' e site agree => agree.expression, fun s' callee arguments agree made => agree.call made,
    fun callee arguments own name v sound holds apart => ?_⟩
  have inside (c : ScopeId) (root : (Goal.call callee arguments).Root c) : c < s.store.size := by
    obtain ⟨w, mem, scope⟩ := root
    exact (holds w (.tail _ mem)).1 c scope
  have agree : AgreeFrom (Goal.call callee arguments).Root s { s with store := s.store.bind own name v } :=
    agreeFrom_bind sound inside (holds v (.head _)) apart
  refine agree.call fun w mem => ?_
  exact ⟨(holds w (.tail _ mem)).2, (holds w (.tail _ mem)).2⟩

theorem scoping_is_lexical_unreachable :
    let s₀ : State := (Session.new .silent).state
    let s₁ : State := { s₀ with store := s₀.store.bind 0 "x" (.int 1) }
    -- The scope 1 stands in the root; in the other state it binds a name, and a further scope stands in it.
    let s : State := { s₁ with store := (s₁.store.enter (some 0) {}).2 }
    let s₂ : State := { s with store := s.store.bind 1 "x" (.int 2) }
    let s' : State := { s₂ with store := (s₂.store.enter (some 1) {}).2 }
    let x : Identifier := ⟨"x", .origin⟩
    let thunk : Function := ⟨0, [], .mk [.expr (.name x)] .origin, .origin⟩
    let f : Function := ⟨0, [], .mk [.expr (.function [] thunk.body .origin)] .origin, .origin⟩
    let e : Expr := .call (.function f.parameters f.body .origin) [] .origin
    let site : Site := ⟨0, 0⟩
    let call : Goal := .call (.function ⟨f, 0⟩) []
    AgreeFrom (Goal.expression e site).Root s s' ∧
      (∃ t, (Goal.expression e site).Ends .unreached s (.ok (.function ⟨thunk, 2⟩)) t) ∧
      (∃ t, (Goal.expression e site).Ends .unreached s' (.ok (.function ⟨thunk, 3⟩)) t) ∧
      EndsAlike .unreached (perform .unreached (.expression e site)) (Goal.expression e site).Root s s' ∧
      EndsAlike .unreached (perform .unreached (.call (.function ⟨f, 0⟩) [])) call.Root s s' ∧
      EndsAlike .unreached (perform .unreached (.call (.function ⟨f, 0⟩) [])) call.Root s s₂ := by
  intro s₀ s₁ s s₂ s' x thunk f e site call
  have empty (name : String) (v : Value) (t : State) :
      ({} : Std.TreeMap String Value)[name]? = some v → t.CanHold v := by
    simp
  have sound₁ : s₁.Sound := (State.sound_new .silent).bind ⟨Value.within_int, .int 1⟩
  have sound : s.Sound := sound₁.enter (fun id mem => by cases mem; decide) fun name v => empty name v s₁
  have sound₂ : s₂.Sound := sound.bind ⟨Value.within_int, .int 2⟩
  have sound' : s'.Sound := sound₂.enter (fun id mem => by cases mem; decide) fun name v => empty name v s₂
  have binds (name : String) : s.store.bound? 0 name = if name = "x" then some (.int 1) else none := by
    change (Store.enter (Store.bind s₀.store 0 "x" (.int 1)) (some 0) {}).2.bound? 0 name = _
    rw [Store.bound?_enter, if_neg (by decide), Store.bound?_bind]
    by_cases same : name = "x"
    · rw [if_pos ⟨rfl, same, by decide⟩, if_pos same]
    · rw [if_neg fun hits => same hits.2.1, if_neg same]
      change (Store.enter {} none {}).2.bound? 0 name = none
      rw [Store.bound?_enter, if_pos (by decide)]
      simp
  have alone {id : ScopeId} (reachable : s.store.Reachable 0 id) : id = 0 := by
    induction reachable with
    | refl => rfl
    | tail _ link same =>
      subst same
      rcases link with around | ⟨name, v, bound, inside⟩
      · cases around
      · rw [binds] at bound
        split at bound
        · cases bound
          cases inside
        · cases bound
  have agree (id : ScopeId) (reachable : s.store.Reachable 0 id) : s.store.AgreesAt s'.store id := by
    cases alone reachable
    refine ⟨rfl, fun name => Eq.symm ?_⟩
    change (Store.enter (Store.bind s.store 1 "x" (.int 2)) (some 1) {}).2.bound? 0 name = s.store.bound? 0 name
    rw [Store.bound?_enter, if_neg (by decide), Store.bound?_bind, if_neg fun hits => nomatch hits.1]
  have root {c : ScopeId} (begins : call.Root c) : c = 0 := by
    obtain ⟨v, mem, inside⟩ := begins
    cases List.mem_singleton.1 mem
    exact Value.mem_scopes_function.1 inside
  have fromExpression : AgreeFrom (Goal.expression e site).Root s s' := by
    refine ⟨sound, sound', rfl, ?_, ?_⟩
    · rintro _ rfl
      decide
    · rintro id ⟨_, rfl, reachable⟩
      exact agree id reachable
  have fromCall : AgreeFrom call.Root s s' := by
    refine ⟨sound, sound', rfl, ?_, ?_⟩
    · rintro c begins
      cases root begins
      decide
    · rintro id ⟨c, begins, reachable⟩
      cases root begins
      exact agree id reachable
  have apart : ¬ s.store.ReachableFrom call.Root 1 := by
    rintro ⟨c, begins, reachable⟩
    cases root begins
    cases alone reachable
  have comes (s : State) (v : Value)
      (run : (((perform .unreached (.expression e site) s).run (perform .unreached) 100).map (·.1)) = some (.ok v)) :
      ∃ t, (Goal.expression e site).Ends .unreached s (.ok v) t := by
    obtain ⟨⟨r, t⟩, run, same⟩ := Option.map_eq_some_iff.1 run
    subst same
    exact ⟨t, exists_run_iff_returns.1 ⟨100, run⟩⟩
  obtain ⟨expressions, calls, rebound⟩ := scoping_is_lexical .unreached s
  refine ⟨fromExpression, comes s _ rfl, comes s' _ rfl, expressions s' e site fromExpression, ?_, ?_⟩
  · refine calls s' (.function ⟨f, 0⟩) [] fromCall fun v mem => ?_
    cases List.mem_singleton.1 mem
    exact ⟨.function _, .function _⟩
  · refine rebound (.function ⟨f, 0⟩) [] 1 "x" (.int 2) sound (fun v mem => ?_) apart
    rcases List.mem_cons.1 mem with rfl | mem
    · exact ⟨Value.within_int, .int 2⟩
    · cases List.mem_singleton.1 mem
      exact ⟨Value.within_function.2 (by decide), .function _⟩

end Monkey
