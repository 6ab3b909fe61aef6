import Monkey.Proofs.Runs
import Monkey.Proofs.ScopeEvaluation
import Monkey.Session

namespace Monkey

open Evaluator

theorem Node.own?_goal (node : Node) (site : Site) : (node.goal site).own? = some site.scope := by
  cases node <;> rfl

theorem Node.within_goal {node : Node} {site : Site} {n : Nat} (lt : site.scope < n) : (node.goal site).Within n := by
  cases node <;> exact lt

/-- An outcome of a goal: what it leaves alone, and that no loose end is left. -/
theorem Evaluator.frame_of_returns {release : Release} {goal : Goal} {s t : State} {r : Except Signal goal.Result}
    (sound : s.store.Sound) (inputs : goal.Within s.store.size)
    (returns : CallTree.Returns (perform release) (perform release goal s) r t) :
    s.store.Frame goal.own? t.store ∧ t.store.Sound ∧ EndWithin goal.ResultWithin t.store.size r := by
  have meets (goal : Goal) (s : State) (pre : s.store.Sound ∧ goal.Within s.store.size) :=
    stays_perform release goal pre.2 s pre.1 (Nat.le_refl _)
  exact returns.ensures meets (meets goal s ⟨sound, inputs⟩)

namespace Session

/-- The session's root scope is there, and its store has no loose ends. -/
def Sound (s : Session) : Prop := s.state.store.Sound ∧ s.root < s.state.store.size

theorem sound_new (target : Printer.Target) : (Session.new target).Sound := by
  refine ⟨Store.sound_empty.enter nofun fun name v found => ?_, Nat.zero_lt_one⟩
  simp at found

theorem Sound.evalNode {s : Session} {node : Node} {site : Site} (sound : s.Sound)
    (lt : site.scope < s.state.store.size) : (s.evalNode node site).2.Sound := by
  refine after_evalNode sound fun v t run => ?_
  obtain ⟨r, returns, _⟩ := Interpreter.exists_returns_of_evalNode run
  obtain ⟨frame, sound', _⟩ := frame_of_returns sound.1 (Node.within_goal lt) returns
  exact ⟨sound', Nat.lt_of_lt_of_le sound.2 frame.size_le⟩

/-- No source that is evaluated in a session leaves a loose end. -/
theorem Sound.evalSource {s : Session} {source : String} (sound : s.Sound) : (s.evalSource source).2.Sound :=
  after_evalSource sound fun _ => Sound.evalNode (s := s.load.2) sound sound.2

end Session

/-- A node that is evaluated in a scope, to whatever end, leaves all other scopes that were there as they were, and
keeps its own scope where it stands and every name bound that was. A call leaves all scopes that were there as they
were, that of the caller and that which the callee captured among them. What is opened meanwhile stands in an older
scope, so that in the end every chain of scopes ends, and every look along it. -/
theorem writes_own_scope (i : Interpreter) {s : State} (sound : s.store.Sound) :
    (∀ (node : Node) (site : Site) (v : Option Value) (t : State), site.scope < s.store.size →
      i.evalNode node site s = some (v, t) →
        s.store.Frame (some site.scope) t.store ∧ t.store.Sound ∧ t.store.ChainsEnd) ∧
      ∀ (callee : Value) (arguments : List Value) (r : Except Signal Value) (t : State),
        callee.Within s.store.size → (∀ v ∈ arguments, v.Within s.store.size) →
        CallTree.Returns (perform i.release) (perform i.release (.call callee arguments) s) r t →
          s.store.Frame none t.store ∧ t.store.Sound ∧ t.store.ChainsEnd := by
  refine ⟨fun node site v t lt run => ?_, fun callee arguments r t within each returns => ?_⟩
  · obtain ⟨r, returns, _⟩ := Interpreter.exists_returns_of_evalNode run
    obtain ⟨frame, sound', _⟩ := frame_of_returns sound (Node.within_goal lt) returns
    rw [Node.own?_goal] at frame
    exact ⟨frame, sound', sound'.chainsEnd⟩
  · have inputs : (Goal.call callee arguments).Within s.store.size := ⟨within, each⟩
    obtain ⟨frame, sound', _⟩ := frame_of_returns sound inputs returns
    exact ⟨frame, sound', sound'.chainsEnd⟩

theorem writes_own_scope_shadowing :
    let x : Identifier := ⟨"x", .origin⟩
    let s : State := {
      store := ((Store.enter {} none (({} : Std.TreeMap String Value).insert "x" (.int 1))).2.enter (some 0) {}).2
      printer := { target := .silent } }
    let i : Interpreter := { budget := 100 }
    let f : Function := ⟨0, [x], .mk [.bind x (.int 3 .origin) .origin, .expr (.name x)] .origin, .origin⟩
    let e : Expr := .call (.function f.parameters f.body f.place) [.int 2 .origin] .origin
    s.store.Sound ∧
      (1 < s.store.size ∧ ∃ t, i.evalNode (.statement (.bind x e .origin)) ⟨0, 1⟩ s = some (none, t) ∧
        s.store.Frame (some 1) t.store ∧ t.store.Sound ∧ t.store.ChainsEnd) ∧
      (Value.function ⟨f, 1⟩).Within s.store.size ∧
        ∃ t, CallTree.Returns (perform i.release) (perform i.release (.call (.function ⟨f, 1⟩) [.int 2]) s)
            (.ok (.int 3)) t ∧
          s.store.Frame none t.store ∧ t.store.Sound ∧ t.store.ChainsEnd := by
  intro x s i f e
  have root : (Store.enter {} none (({} : Std.TreeMap String Value).insert "x" (.int 1))).2.Sound := by
    refine Store.sound_empty.enter nofun fun name v found => ?_
    rw [Std.TreeMap.getElem?_insert] at found
    split at found
    · cases found
      exact Value.within_int
    · simp at found
  have sound : s.store.Sound := by
    refine root.enter (fun id mem => ?_) fun name v found => ?_
    · cases mem
      decide
    · simp at found
  obtain ⟨nodes, calls⟩ := writes_own_scope i sound
  have inside : 1 < s.store.size := by decide
  have value : (i.evalNode (.statement (.bind x e .origin)) ⟨0, 1⟩ s).any (·.1.isNone) = true := by decide +kernel
  obtain ⟨⟨v, t⟩, run, none⟩ := (Option.any_eq_true _ _).1 value
  obtain rfl := Option.isNone_iff_eq_none.1 none
  have within : (Value.function ⟨f, 1⟩).Within s.store.size := Value.within_function.2 inside
  have called : (((perform i.release (.call (.function ⟨f, 1⟩) [.int 2]) s).run (perform i.release) 100).any
      fun p => p.1.toOption.any (Value.int 3).identical) = true := by
    decide +kernel
  obtain ⟨⟨r, u⟩, runCall, three⟩ := (Option.any_eq_true _ _).1 called
  obtain rfl : r = .ok (.int 3) := by
    cases r with
    | ok w => exact congrArg _ (Value.identical_int_iff.1 three)
    | error => cases three
  have returns := CallTree.exists_run_iff_returns.1 ⟨100, runCall⟩
  have each : ∀ v ∈ [Value.int 2], v.Within s.store.size := by simp
  exact ⟨sound, ⟨inside, t, run, nodes (.statement (.bind x e .origin)) ⟨0, 1⟩ _ t inside run⟩, within, u, returns,
    calls (.function ⟨f, 1⟩) [.int 2] _ u within each returns⟩

end Monkey
