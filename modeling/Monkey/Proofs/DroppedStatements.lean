import Monkey.Proofs.Accounts
import Monkey.Proofs.RuleTable

namespace Monkey

namespace Parser

open CallTree (Traces)

theorem Production.tallies {α : Type} {m : Parser α} (h : Production m) (s : State) : Tallies m s := by
  cases h with
  | goal goal => exact produce_tallies goal s
  | letStatement => exact tallies_letStatement
  | returnStatement => exact tallies_returnStatement
  | block => exact tallies_block
  | operand => exact tallies_operand
  | integer => exact tallies_integer
  | unary op => exact tallies_unary
  | grouped => exact tallies_grouped
  | conditional => exact tallies_conditional
  | alternative => exact tallies_alternative
  | function => exact tallies_function
  | parameter => exact tallies_parameter
  | parameters => exact tallies_parameters
  | array => exact tallies_array
  | hash => exact tallies_hash
  | pair => exact tallies_pair
  | pairs => exact tallies_pairs
  | expressionList closing => exact tallies_expressionList
  | extend left c => exact tallies_extend

/-- Every goal comes to an end, wherever in the text it is started. -/
theorem exists_returns_produce (goal : Goal) {s : State} (aligned : s.Aligned) :
    ∃ r t, CallTree.Returns produce (produce goal s) r t := by
  obtain ⟨trace, r, t, run, _⟩ := (produce_thrifty goal).exists_traces aligned
  exact ⟨r, t, run.returns⟩

section Accounts

variable {α : Type} {m : Parser α} {s : State}

theorem tally_of_traces (h : Tallies m s) (aligned : s.Aligned) {trace : Trace} {r : Except GivenUp α} {t : State}
    (run : Traces produce trace (m s) r t) : Tally s trace r t :=
  (ends_iff_tally aligned).1 (run.charts keeps_bookkeeping (h aligned))

theorem Account.reportEach {moved : Nat} {marks : List Mark} {trace : Trace} {r : Except GivenUp α} {t : State}
    (h : Account s moved marks trace r t) : ReportEach (dropped trace) (marks.map Mark.error) := by
  refine List.forall₂_map_right_iff.2 (h.drops.imp fun u m => ?_)
  exact fun both => both.2

theorem Tally.appends {trace : Trace} {r : Except GivenUp α} {t : State} (h : Tally s trace r t) :
    ∃ ofDropped own, t.errors.toList = s.errors.toList ++ ofDropped ++ own ∧
      ReportEach (dropped trace) ofDropped ∧ own.length = ownErrors r := by
  obtain ⟨moved, marks, account⟩ := h
  have errors := account.errors
  cases r with
  | ok a => exact ⟨_, [], by rw [List.append_nil]; exact errors, account.reportEach, rfl⟩
  | error x =>
    obtain ⟨slot, e, _, errors⟩ := errors
    exact ⟨_, [e], errors, account.reportEach, rfl⟩

theorem reportsDrops_of_tallies (h : Tallies m s) (aligned : s.Aligned) : ReportsDrops m s where
  ends := (h aligned).exists_traces keeps_bookkeeping fun goal _ aligned => exists_returns_produce goal aligned
  appends run := (tally_of_traces h aligned run).appends

end Accounts

/-- What `parse` runs, with its trace. -/
theorem exists_traces_parse (source : String) :
    ∃ trace ss t, Traces produce trace (statements false (State.start source)) (.ok ss) t ∧
      parse source = ⟨⟨ss⟩, t.errors.toList⟩ := by
  obtain ⟨ss, t, returns, same⟩ := exists_returns_parse source
  obtain ⟨trace, run⟩ := returns.exists_traces
  exact ⟨trace, ss, t, run, same⟩

end Parser

open Monkey.Parser CallTree in
/-- The errors of a text are those of the statements that were dropped in it, in the program or in a block, one for
each; without errors none was dropped. Every production, wherever it is started, adds to the errors one for each
statement that is dropped on the way, and one more if it gives up itself. And no way out of the rule tables is ever
taken: whatever is done there, nothing changes. -/
theorem drops_are_reported :
    (∀ source, ∃ trace ss t, Traces produce trace (statements false (State.start source)) (.ok ss) t ∧
      parse source = ⟨⟨ss⟩, t.errors.toList⟩ ∧ ReportEach (dropped trace) (parse source).errors ∧
      (parse source).errors.length = (dropped trace).length ∧ ((parse source).errors = [] ↔ dropped trace = [])) ∧
    (∀ {α : Type} {m : Parser α}, Production m → ∀ s : State, s.Aligned → ReportsDrops m s) ∧
    ∀ out : WaysOut, produceByTables out = produce := by
  refine ⟨fun source => ?_, fun production s aligned => ?_, fun out => ?_⟩
  · obtain ⟨trace, ss, t, run, same⟩ := exists_traces_parse source
    have start : Tallies (statements false) (State.start source) := tallies_call nofun
    obtain ⟨moved, marks, account⟩ := tally_of_traces start (State.aligned_start source) run
    have errors : (parse source).errors = marks.map Mark.error := by
      rw [same]
      exact account.errors
    have each : ReportEach (dropped trace) (parse source).errors := errors ▸ account.reportEach
    have count : (parse source).errors.length = (dropped trace).length := each.length_eq.symm
    refine ⟨trace, ss, t, run, same, each, count, ?_⟩
    rw [← List.length_eq_zero_iff, count, List.length_eq_zero_iff]
  · exact reportsDrops_of_tallies (production.tallies s) aligned
  · funext goal s
    exact produceByTables_eq out s goal

open Monkey.Parser CallTree in
/-- A block that the end of the text cuts off. The statements that begin with `let`, with `=` and with `+` are dropped,
and the block is read nevertheless. -/
theorem drops_are_reported_block :
    let s := State.start "\x7b let = 1; + 2"
    s.Aligned ∧ ReportsDrops block s ∧
      ∃ trace b t, Traces produce trace (block s) (.ok b) t ∧ t.errors.size = 3 ∧ (dropped trace).length = 3 := by
  intro s
  have aligned : s.Aligned := State.aligned_start _
  have reports : ReportsDrops block s := drops_are_reported.2.1 .block s aligned
  refine ⟨aligned, reports, ?_⟩
  obtain ⟨trace, r, t, run⟩ := reports.ends
  have outcome : ((CallTree.run produce 100 (block s)).map fun (r, t) => (r.toOption.isSome, t.errors.size)) =
      some (true, 3) := by decide +kernel
  obtain ⟨⟨r', t'⟩, found, same⟩ := Option.map_eq_some_iff.1 outcome
  obtain ⟨rfl, rfl⟩ := run.returns.unique (exists_run_iff_returns.1 ⟨100, found⟩)
  obtain ⟨value, three⟩ := Prod.mk.inj same
  cases r with
  | error e => cases value
  | ok b =>
    refine ⟨trace, b, t, run, three, ?_⟩
    obtain ⟨ofDropped, own, errors, each, none⟩ := reports.appends run
    have count := congrArg List.length errors
    rw [List.length_eq_zero_iff.1 none, List.append_nil, Array.length_toList, three, List.length_append] at count
    rw [each.length_eq]
    exact (count.trans (Nat.zero_add _)).symm

end Monkey
