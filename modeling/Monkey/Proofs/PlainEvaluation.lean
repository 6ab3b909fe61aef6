import Monkey.Proofs.PlainData
import Monkey.Proofs.Policies

namespace Monkey

namespace Evaluator

/-- An error, or the return of a plain value. -/
def Signal.Plain : Signal → Prop
  | .error .. => True
  | .ret _ v => v.Plain

/-- A value as `plain` says, or a signal that is an error or the return of a plain value. -/
def PlainEnd {α : Type} (plain : α → Prop) : Except Signal α → Prop
  | .ok a => plain a
  | .error signal => signal.Plain

/-- Only plain values are handed to the goal: the callee and arguments of a call, the table that is filled. -/
def Goal.Plain : Goal → Prop
  | .table t _ _ => Value.PlainTable t
  | .call callee arguments => callee.Plain ∧ ∀ v ∈ arguments, v.Plain
  | .expression .. | .expressions .. | .statement .. | .statements .. => True

/-- What the goal is reached with is plain. Statements may have no value. -/
def Goal.PlainResult : (goal : Goal) → goal.Result → Prop
  | .expression .., v | .call .., v => v.Plain
  | .expressions .., vs => ∀ v ∈ vs, v.Plain
  | .table .., t => Value.PlainTable t
  | .statement .., v | .statements .., v => ∀ w ∈ v, w.Plain

/-- The evaluation starts where all bindings are plain, keeps them so at every call, hands over plain values only,
and ends as `plain` says, if all goals do. -/
def Keeps {α : Type} (m : Evaluator α) (plain : α → Prop) : Prop :=
  ∀ s : State, s.store.Plain →
    (m s).Ensures (fun goal t => t.store.Plain ∧ goal.Plain)
      (fun goal _ _ r t => t.store.Plain ∧ PlainEnd goal.PlainResult r) fun _ r t => t.store.Plain ∧ PlainEnd plain r

/-- Plain values last. -/
theorem lasting_plain : Policy.Lasting Value.Plain Value.PlainTable where
  toHereditary := Value.hereditary_plain
  builtin _ := trivial
  function _ := trivial
  error _ _ h := h
  hash _ _ := Iff.rfl
  empty := Value.plainTable_empty
  insert table key own value := table.insert key value own
  find table found := (table.find? found).2

theorem Goal.plain_iff {goal : Goal} : goal.Plain ↔ (Policy.ofLasting lasting_plain).Inputs ⟨⟩ goal := by
  cases goal with
  | table t pairs site => exact ⟨fun h => ⟨h, fun _ _ => ⟨trivial, trivial⟩⟩, fun h => h.1⟩
  | call callee arguments => exact Iff.rfl
  | expression | statement => exact Iff.rfl
  | expressions | statements => exact ⟨fun _ _ _ => trivial, fun _ => trivial⟩

theorem plainEnd_iff {goal : Goal} {r : Except Signal goal.Result} : PlainEnd goal.PlainResult r ↔
    (Policy.ofLasting lasting_plain).Ends ((Policy.ofLasting lasting_plain).Results goal) ⟨⟩ r := by
  cases r with
  | ok a => cases goal <;> exact Iff.rfl
  | error signal => cases signal <;> exact Iff.rfl

theorem keeps_statements (ss : List Statement) (site : Site) :
    Keeps (statements ss site) fun v => ∀ w ∈ v, w.Plain :=
  fun _ store => ⟨⟨store, trivial⟩, fun _ _ _ met => met⟩

/-- What is done for a goal with plain inputs keeps data plain. -/
theorem keeps_perform (release : Release) (goal : Goal) (inputs : goal.Plain) :
    Keeps (perform release goal) goal.PlainResult := by
  intro s store
  have keeps := Policy.keeps_perform release (Goal.plain_iff.1 inputs) s ⟨store, trivial⟩
  refine keeps.ensures (fun goal t starts => ?_) (fun goal r t ends => ?_) fun r t ends => ?_
  · exact ⟨starts.1.store, Goal.plain_iff.2 starts.2⟩
  · exact ⟨⟨ends.1, trivial⟩, plainEnd_iff.1 ends.2⟩
  · exact ⟨ends.1.store, plainEnd_iff.2 ends.2⟩

end Evaluator

end Monkey
