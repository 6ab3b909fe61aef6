import Monkey.Proofs.ProductionCost

namespace Monkey

namespace Parser

/-- Statements are never given up as a whole. -/
def Resolute : (goal : Goal) → Except GivenUp goal.Result → Prop
  | .statements _, .error _ => False
  | _, _ => True

theorem produce_resolute (goal : Goal) (s : State) :
    (produce goal s).Ensures (fun _ _ => True) (fun goal _ _ r _ => Resolute goal r)
      fun _ r _ => Resolute goal r := by
  cases goal with
  | statements inBlock =>
    change CallTree.Ensures _ _ ((if _ then pure [] else _ : Parser (List Statement)) s) _
    split
    · trivial
    · refine ⟨trivial, fun n read t _ => ?_⟩
      refine ⟨trivial, fun m rest u met => ?_⟩
      cases rest with
      | ok ss => cases read <;> trivial
      | error e => exact met.elim
  | _ => exact (CallTree.ensures_true _).mono (fun _ _ h => h) fun _ r _ _ => by simp [Resolute]

/-- The state in which a text is begun. -/
def State.start (source : String) : State := { cursor := .ofString source }

theorem State.aligned_start (source : String) : (start source).Aligned := ⟨.ofString source, rfl⟩

theorem State.tokens_start (source : String) : (start source).tokens = (Lexer.ofString source).tokens :=
  tokens_ofLexer rfl

end Parser

open Monkey.Parser in
/-- The production of statements always has an outcome, which `parse` finds within its budget. -/
theorem exists_returns_parse (source : String) :
    ∃ ss s, CallTree.Returns produce (statements false (State.start source)) (.ok ss) s ∧
      parse source = ⟨⟨ss⟩, s.errors.toList⟩ := by
  have start : Thrifty ((Goal.statements false).weight (State.start source) + 1)
      ((Goal.statements false).surcharge (State.start source).tokens.length + 1) (statements false)
      (State.start source) :=
    thrifty_call (.statements false) (Nat.lt_succ_self _)
  obtain ⟨trace, out, s, run, within⟩ := start.exists_traces (State.aligned_start source)
  have enough : trace.length ≤ parseBudget source.utf8ByteSize := by
    have bytes := length_tokens_ofString_le source
    have surcharge := surcharge_statements_le false (State.start source).tokens.length
    have calls := within.2.2
    rw [State.tokens_start] at calls surcharge
    unfold parseBudget
    omega
  have found := run.returnsIn.run_eq enough
  have ends : (statements false (State.start source)).Ensures (fun _ _ => True)
      (fun goal _ _ r _ => Resolute goal r) fun _ r _ => Resolute (.statements false) r :=
    ⟨trivial, fun _ r _ met => met⟩
  have resolute := run.returns.ensures (fun goal s _ => produce_resolute goal s) ends
  match out, resolute with
  | .ok ss, _ =>
    refine ⟨ss, s, run.returns, ?_⟩
    unfold parse
    rw [State.start] at found
    simp only [found]

open Monkey.Parser in
/-- `exists_returns_parse` without the call at the top. -/
theorem Parser.exists_returns_program (source : String) :
    ∃ ss s, CallTree.Returns produce (produce (.statements false) (State.start source)) (.ok ss) s ∧
      parse source = ⟨⟨ss⟩, s.errors.toList⟩ := by
  obtain ⟨ss, s, returns, same⟩ := exists_returns_parse source
  obtain ⟨r, t, inside, done⟩ := CallTree.returns_call_iff.1 returns
  obtain ⟨rfl, rfl⟩ := CallTree.returns_done_iff.1 done
  exact ⟨ss, s, inside, same⟩

end Monkey
