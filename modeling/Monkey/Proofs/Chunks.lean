import Monkey.Chunks
import Monkey.Parser
import Monkey.Proofs.Policies
import Monkey.Proofs.Runs

namespace Monkey

open Evaluator CallTree

namespace Value

theorem signalFreeElements_iff {vs : List Value} : SignalFreeElements vs ↔ ∀ v ∈ vs, v.SignalFree := by
  induction vs with
  | nil => simp [SignalFreeElements]
  | cons v vs ih => simp [SignalFreeElements, ih]

theorem signalFreeTable_iff {t : HashTable Value} :
    SignalFreeTable t ↔ ∀ p ∈ t.entries, p.1.SignalFree ∧ p.2.SignalFree := by
  obtain ⟨⟨ps⟩, slots⟩ := t
  rw [SignalFreeTable]
  induction ps with
  | nil => simp [SignalFreeEntries]
  | cons p ps ih => simpa [SignalFreeEntries, and_assoc] using fun _ _ => ih

end Value

/-- Signal-free values last. -/
theorem lasting_signalFree : Policy.Lasting Value.SignalFree Value.SignalFreeTable where
  int _ := trivial
  bool _ := trivial
  str _ _ := trivial
  null := trivial
  array _ _ := Value.signalFreeElements_iff
  builtin _ := trivial
  function _ := trivial
  error _ _ h := h
  hash _ _ := Iff.rfl
  empty := Value.signalFreeTable_iff.2 fun _ mem => (Array.not_mem_empty _ mem).elim
  insert table key _ value :=
    Value.signalFreeTable_iff.2 (HashTable.forall_entries_insert (Value.signalFreeTable_iff.1 table) ⟨key, value⟩)
  find table found := (HashTable.of_find? (Value.signalFreeTable_iff.1 table) found).2

namespace Evaluator

/-- A value that is signal-free if there is one, an error, or the return of a signal-free value. -/
def SignalFreeEnd : Except Signal (Option Value) → Prop
  | .ok v => ∀ u ∈ v, u.SignalFree
  | .error (.ret _ v) => v.SignalFree
  | .error (.error ..) => True

variable {release : Release} {site : Site} {st : Statement} {ss before after : List Statement} {s t : State}
  {r : Except Signal (Option Value)} {v last : Option Value}

theorem Goal.Ends.signalFree (h : (Goal.statements ss site).Ends release s r t) (free : s.store.SignalFree) :
    t.store.SignalFree ∧ SignalFreeEnd r := by
  have code : (Policy.ofLasting lasting_signalFree).Inputs ⟨⟩ (.statements ss site) := fun _ _ => trivial
  obtain ⟨_, _, holds, ends⟩ := (Policy.keeps_perform release code).returns ⟨free, trivial⟩ h
  refine ⟨holds.store, ?_⟩
  cases r with
  | ok v => exact ends
  | error signal => cases signal <;> exact ends

/-- The statements come to an end after others that came to the value `last`. -/
def EndsAfter (release : Release) (site : Site) (last : Option Value) (ss : List Statement) (s : State)
    (r : Except Signal (Option Value)) (t : State) : Prop :=
  Returns (perform release) (block site last ss s) r t

theorem endsAfter_none_iff : EndsAfter release site none ss s r t ↔ (Goal.statements ss site).Ends release s r t :=
  Iff.rfl

/-- Of statements that are there the value before them does not count. -/
theorem endsAfter_iff (more : ss ≠ []) :
    EndsAfter release site last ss s r t ↔ (Goal.statements ss site).Ends release s r t := by
  cases ss with
  | nil => exact absurd rfl more
  | cons st ss => exact Iff.rfl

theorem ends_singleton_iff :
    (Goal.statements [st] site).Ends release s r t ↔ (Goal.statement st site).Ends release s r t := by
  have same : block site none [st] = statement st site := bind_pure _
  change Returns (perform release) (block site none [st] s) r t ↔ _
  rw [same]
  exact Interpreter.returns_goal_iff

/-- The statements after the first go on where it has given a value. -/
theorem endsAfter_cons_iff : EndsAfter release site last (st :: ss) s r t ↔
    (∃ v u, (Goal.statement st site).Ends release s (.ok v) u ∧ EndsAfter release site v ss u r t) ∨
      ∃ signal, (Goal.statement st site).Ends release s (.error signal) t ∧ r = .error signal := by
  change Returns (perform release) ((statement st site s).andThen fun v u => block site v ss u) r t ↔ _
  rw [returns_andThen_iff]
  constructor
  · rintro (⟨v, u, first, second⟩ | ⟨signal, first, rfl⟩)
    · exact .inl ⟨v, u, Interpreter.returns_goal_iff.1 first, second⟩
    · exact .inr ⟨signal, Interpreter.returns_goal_iff.1 first, rfl⟩
  · rintro (⟨v, u, first, second⟩ | ⟨signal, first, rfl⟩)
    · exact .inl ⟨v, u, Interpreter.returns_goal_iff.2 first, second⟩
    · exact .inr ⟨signal, Interpreter.returns_goal_iff.2 first, rfl⟩

theorem endsAfter_append_iff : EndsAfter release site last (before ++ after) s r t ↔
    (∃ v u, EndsAfter release site last before s (.ok v) u ∧ EndsAfter release site v after u r t) ∨
      ∃ signal, EndsAfter release site last before s (.error signal) t ∧ r = .error signal := by
  induction before generalizing last s with
  | nil =>
    constructor
    · exact fun h => .inl ⟨last, s, .done _ _, h⟩
    · rintro (⟨v, u, first, h⟩ | ⟨_, first, _⟩)
      · cases first
        exact h
      · cases first
  | cons st before ih =>
    simp only [List.cons_append, endsAfter_cons_iff, ih]
    constructor
    · rintro (⟨v, u, first, ⟨v', u', second, third⟩ | ⟨signal, second, rfl⟩⟩ | ⟨signal, first, rfl⟩)
      · exact .inl ⟨v', u', .inl ⟨v, u, first, second⟩, third⟩
      · exact .inr ⟨signal, .inl ⟨v, u, first, second⟩, rfl⟩
      · exact .inr ⟨signal, .inr ⟨signal, first, rfl⟩, rfl⟩
    · rintro (⟨v', u', ⟨v, u, first, second⟩ | ⟨_, _, never⟩, third⟩ |
        ⟨signal, ⟨v, u, first, second⟩ | ⟨_, first, same⟩, rfl⟩)
      · exact .inl ⟨v, u, first, .inl ⟨v', u', second, third⟩⟩
      · cases never
      · exact .inl ⟨v, u, first, .inr ⟨signal, second, rfl⟩⟩
      · cases same
        exact .inr ⟨signal, first, rfl⟩

/-- The second of two lists of statements goes on where the first has given a value. -/
theorem ends_append_iff (more : after ≠ []) : (Goal.statements (before ++ after) site).Ends release s r t ↔
    (∃ v u, (Goal.statements before site).Ends release s (.ok v) u ∧ (Goal.statements after site).Ends release u r t) ∨
      ∃ signal, (Goal.statements before site).Ends release s (.error signal) t ∧ r = .error signal := by
  rw [← endsAfter_none_iff, endsAfter_append_iff]
  simp only [endsAfter_none_iff, endsAfter_iff more]

/-- Of a run where no signal gets into data the value shows whether a signal was its end. -/
theorem any_isSignal_settle (free : SignalFreeEnd r) :
    (settle r).any Value.isSignal = true ↔ ∃ signal, r = .error signal := by
  cases r with
  | ok v =>
    cases v with
    | none => simp [settle]
    | some u =>
      have inside : u.SignalFree := free u rfl
      cases u <;> simp_all [settle, Value.isSignal, Value.SignalFree]
  | error signal => cases signal <;> simp [settle, Signal.toValue, Value.isSignal]

/-- A program yields what its statements yield as a block, and what is inside a return. -/
theorem programValue_eq (free : SignalFreeEnd r) : programValue r = (settle r).map Value.unwrapped := by
  cases r with
  | ok v =>
    cases v with
    | none => rfl
    | some u =>
      have inside : u.SignalFree := free u rfl
      cases u <;> first | rfl | exact inside.elim
  | error signal => cases signal <;> rfl

end Evaluator

namespace Interpreter

variable {release : Release} {site : Site} {n m : Nat} {s t : State} {v last : Option Value}

/-- A larger budget keeps the answer. -/
theorem evalNode_mono (le : n ≤ m) {node : Node} (h : evalNode { budget := n, release } node site s = some (v, t)) :
    evalNode { budget := m, release } node site s = some (v, t) := by
  cases node <;>
  · obtain ⟨x, run, same⟩ := Option.map_eq_some_iff.1 h
    exact Option.map_eq_some_iff.2 ⟨x, run_mono le run, same⟩

section InTurn

variable {i : Interpreter} {st : Statement} {ss : List Statement} {u : Option Value} {s' : State}

/-- A statement that is stopped is the last one. -/
theorem evalInTurn_of_stopped (first : i.evalNode (.statement st) site s = some (u, s'))
    (stopped : u.any Value.isSignal = true) : i.evalInTurn site last (st :: ss) s = some (u, s') := by
  simp only [evalInTurn, first, if_pos stopped]

theorem evalInTurn_of_onward (first : i.evalNode (.statement st) site s = some (u, s'))
    (onward : ¬ u.any Value.isSignal = true) : i.evalInTurn site last (st :: ss) s = i.evalInTurn site u ss s' := by
  simp only [evalInTurn, first, if_neg onward]

theorem evalInTurn_mono (le : n ≤ m) (h : evalInTurn { budget := n, release } site last ss s = some (v, t)) :
    evalInTurn { budget := m, release } site last ss s = some (v, t) := by
  induction ss generalizing last s with
  | nil => exact h
  | cons st ss ih =>
    cases first : evalNode { budget := n, release } (.statement st) site s with
    | none => simp [evalInTurn, first] at h
    | some pair =>
      obtain ⟨u, s'⟩ := pair
      by_cases stopped : u.any Value.isSignal = true
      · rw [evalInTurn_of_stopped first stopped] at h
        rw [evalInTurn_of_stopped (evalNode_mono le first) stopped, h]
      · rw [evalInTurn_of_onward first stopped] at h
        rw [evalInTurn_of_onward (evalNode_mono le first) stopped, ih h]

theorem exists_evalNode_statement {r : Except Signal (Option Value)} (h : (Goal.statement st site).Ends release s r t) :
    ∃ budget, evalNode { budget, release } (.statement st) site s = some (settle r, t) :=
  exists_evalNode_iff.2 ⟨r, h, rfl⟩

/-- Statements that are evaluated one at a time yield what their list comes to. -/
theorem exists_evalInTurn_iff (free : s.store.SignalFree) :
    (∃ budget, evalInTurn { budget, release } site last ss s = some (v, t)) ↔
      ∃ r, EndsAfter release site last ss s r t ∧ settle r = v := by
  induction ss generalizing last s with
  | nil =>
    constructor
    · rintro ⟨_, h⟩
      cases h
      exact ⟨.ok v, .done _ _, rfl⟩
    · rintro ⟨r, ends, rfl⟩
      cases ends
      exact ⟨0, rfl⟩
  | cons st ss ih =>
    constructor
    · rintro ⟨budget, h⟩
      cases first : evalNode { budget, release } (.statement st) site s with
      | none => simp [evalInTurn, first] at h
      | some pair =>
        obtain ⟨u, s'⟩ := pair
        obtain ⟨r, ends, same⟩ : ∃ r, (Goal.statement st site).Ends release s r s' ∧ settle r = u :=
          exists_evalNode_iff.1 ⟨budget, first⟩
        obtain ⟨free', freeEnd⟩ := (ends_singleton_iff.2 ends).signalFree free
        have shows := any_isSignal_settle freeEnd
        rw [same] at shows
        by_cases stopped : u.any Value.isSignal = true
        · obtain ⟨signal, rfl⟩ := shows.1 stopped
          rw [evalInTurn_of_stopped first stopped] at h
          cases h
          exact ⟨.error signal, endsAfter_cons_iff.2 (.inr ⟨signal, ends, rfl⟩), same⟩
        · rw [evalInTurn_of_onward first stopped] at h
          obtain ⟨r', rest, same'⟩ := (ih free').1 ⟨budget, h⟩
          cases r with
          | ok u' =>
            cases same
            exact ⟨r', endsAfter_cons_iff.2 (.inl ⟨u', s', ends, rest⟩), same'⟩
          | error signal => exact absurd (shows.2 ⟨signal, rfl⟩) stopped
    · rintro ⟨r, ends, rfl⟩
      rcases endsAfter_cons_iff.1 ends with ⟨u, s', first, rest⟩ | ⟨signal, first, rfl⟩
      · obtain ⟨free', freeEnd⟩ := (ends_singleton_iff.2 first).signalFree free
        have onward : ¬ u.any Value.isSignal = true := fun stopped => nomatch (any_isSignal_settle freeEnd).1 stopped
        obtain ⟨n, run⟩ := exists_evalNode_statement first
        obtain ⟨m, run'⟩ := (ih free').2 ⟨r, rest, rfl⟩
        refine ⟨max n m, ?_⟩
        rw [evalInTurn_of_onward (evalNode_mono (Nat.le_max_left n m) run) onward]
        exact evalInTurn_mono (Nat.le_max_right n m) run'
      · obtain ⟨_, freeEnd⟩ := (ends_singleton_iff.2 first).signalFree free
        obtain ⟨n, run⟩ := exists_evalNode_statement first
        exact ⟨n, evalInTurn_of_stopped run ((any_isSignal_settle freeEnd).2 ⟨signal, rfl⟩)⟩

end InTurn

section Chunks

variable {before after : List Statement}

/-- The second chunk is evaluated if the run of the first was not stopped. -/
theorem evalChunks_eq {i : Interpreter} {r : Except Signal (Option Value)} {u : State}
    (run : i.run (block site none before) s = some (r, u)) : i.evalChunks ⟨before⟩ ⟨after⟩ site s =
      if (settle r).any Value.isSignal then some (programValue r, u) else i.evalProgram ⟨after⟩ site u := by
  have program : i.evalProgram ⟨before⟩ site s = some (programValue r, u) := by
    rw [evalProgram_eq, run]
    rfl
  have block : i.evalNode (.block (.mk before .origin)) site s = some (settle r, u) :=
    Option.map_eq_some_iff.2 ⟨(r, u), run, rfl⟩
  simp only [evalChunks, program, block]

theorem exists_evalProgram_iff {ss : List Statement} :
    (∃ budget, evalProgram { budget, release } ⟨ss⟩ site s = some (v, t)) ↔
      ∃ r, (Goal.statements ss site).Ends release s r t ∧ programValue r = v :=
  @exists_evalNode_iff release s t (.program ⟨ss⟩) site v

/-- A program in two chunks yields what the statements of both come to. -/
theorem exists_evalChunks_iff (free : s.store.SignalFree) (more : after ≠ []) :
    (∃ budget, evalChunks { budget, release } ⟨before⟩ ⟨after⟩ site s = some (v, t)) ↔
      ∃ r, (Goal.statements (before ++ after) site).Ends release s r t ∧ programValue r = v := by
  constructor
  · rintro ⟨budget, h⟩
    cases run : Interpreter.run { budget, release } (block site none before) s with
    | none => simp [evalChunks, evalProgram_eq, run] at h
    | some pair =>
      obtain ⟨r, u⟩ := pair
      have ends : (Goal.statements before site).Ends release s r u := exists_run_iff_returns.1 ⟨budget, run⟩
      have shows := any_isSignal_settle (ends.signalFree free).2
      rw [evalChunks_eq run] at h
      cases r with
      | ok a =>
        rw [if_neg fun stopped => nomatch shows.1 stopped] at h
        obtain ⟨r', rest, same⟩ := exists_evalProgram_iff.1 ⟨budget, h⟩
        exact ⟨r', (ends_append_iff more).2 (.inl ⟨a, u, ends, rest⟩), same⟩
      | error signal =>
        rw [if_pos (shows.2 ⟨signal, rfl⟩)] at h
        cases h
        exact ⟨.error signal, (ends_append_iff more).2 (.inr ⟨signal, ends, rfl⟩), rfl⟩
  · rintro ⟨r, ends, rfl⟩
    rcases (ends_append_iff more).1 ends with ⟨a, u, first, rest⟩ | ⟨signal, first, rfl⟩
    · obtain ⟨n, run⟩ := exists_run_iff_returns.2 first
      obtain ⟨m, run'⟩ : ∃ budget, evalNode { budget, release } (.program ⟨after⟩) site u = some (programValue r, t) :=
        exists_evalProgram_iff.2 ⟨r, rest, rfl⟩
      have shows := any_isSignal_settle (first.signalFree free).2
      have onward : ¬ (settle (.ok a)).any Value.isSignal = true := fun stopped => nomatch shows.1 stopped
      refine ⟨max n m, ?_⟩
      rw [evalChunks_eq (i := ⟨max n m, release⟩) (run_mono (Nat.le_max_left n m) run), if_neg onward]
      exact evalNode_mono (Nat.le_max_right n m) run'
    · obtain ⟨n, run⟩ := exists_run_iff_returns.2 first
      have shows := any_isSignal_settle (first.signalFree free).2
      refine ⟨n, ?_⟩
      rw [evalChunks_eq (i := ⟨n, release⟩) run, if_pos (shows.2 ⟨signal, rfl⟩)]

end Chunks

end Interpreter

open Interpreter

/-- Where no scope binds a signal, a list of statements is evaluated alike as a program, as a block, statement by
statement, and in two chunks: the runs end under the same conditions, with the same value and in the same state, which
tells what was printed and how all scopes were left. Only a program takes the value out of a return. -/
theorem statements_alike {release : Release} {s : State} (free : s.store.SignalFree) (site : Site)
    (ss : List Statement) :
    (∀ (budget : Nat) (span : Span), evalProgram { budget, release } ⟨ss⟩ site s =
      (evalNode { budget, release } (.block (.mk ss span)) site s).map fun (v, t) => (v.map Value.unwrapped, t)) ∧
    (∀ (span : Span) (v : Option Value) (t : State),
      (∃ budget, evalNode { budget, release } (.block (.mk ss span)) site s = some (v, t)) ↔
        ∃ budget, evalInTurn { budget, release } site none ss s = some (v, t)) ∧
    ∀ before after : List Statement, ss = before ++ after → after ≠ [] → ∀ (v : Option Value) (t : State),
      (∃ budget, evalProgram { budget, release } ⟨ss⟩ site s = some (v, t)) ↔
        ∃ budget, evalChunks { budget, release } ⟨before⟩ ⟨after⟩ site s = some (v, t) := by
  refine ⟨fun budget span => ?_, fun span v t => ?_, ?_⟩
  · rw [evalProgram_eq, evalNode, Option.map_map]
    refine Option.map_congr ?_
    rintro ⟨r, t⟩ run
    have ends : (Goal.statements ss site).Ends release s r t := exists_run_iff_returns.1 ⟨budget, run⟩
    exact Prod.ext (programValue_eq (ends.signalFree free).2) rfl
  · rw [exists_evalNode_iff, exists_evalInTurn_iff free]
    simp only [endsAfter_none_iff]
    exact Iff.rfl
  · rintro before after rfl more v t
    rw [exists_evalProgram_iff, exists_evalChunks_iff free more]

/-- The block has the return itself as its value, and so have the statements in turn. -/
theorem statements_alike_return :
    let before := (parse "let f = fn(x) \x7b puts(x); [x] \x7d; f(a)").program.statements
    let after := (parse "return f(a)[0]; 5").program.statements
    let s : State := { store := (Store.enter {} none {}).2.bind 0 "a" (.int 7), printer := { target := .silent } }
    s.store.SignalFree ∧ after ≠ [] ∧
      ∃ (id : Identity) (t : State) (budget budget' : Nat),
        evalNode { budget := 99 } (.block (.mk (before ++ after) .origin)) ⟨0, 0⟩ s =
          some (some (.ret id (.int 7)), t) ∧
        evalProgram { budget := 99 } ⟨before ++ after⟩ ⟨0, 0⟩ s = some (some (.int 7), t) ∧
        evalInTurn { budget } ⟨0, 0⟩ none (before ++ after) s = some (some (.ret id (.int 7)), t) ∧
        evalChunks { budget := budget' } ⟨before⟩ ⟨after⟩ ⟨0, 0⟩ s = some (some (.int 7), t) := by
  have value : ((evalNode { budget := 99 } (.block (.mk
      ((parse "let f = fn(x) \x7b puts(x); [x] \x7d; f(a)").program.statements ++
        (parse "return f(a)[0]; 5").program.statements) .origin)) ⟨0, 0⟩
      { store := (Store.enter {} none {}).2.bind 0 "a" (.int 7), printer := { target := .silent } }).any fun p =>
        p.1.any fun v => v.isSignal && (Value.int 7).identical v.unwrapped) = true := by
    decide +kernel
  have length : (parse "return f(a)[0]; 5").program.statements.length = 2 := by decide +kernel
  obtain ⟨⟨_, t⟩, run, some⟩ := (Option.any_eq_true _ _).1 value
  obtain ⟨v, rfl, ends⟩ := (Option.any_eq_true _ _).1 some
  obtain ⟨signal, seven⟩ := Bool.and_eq_true_iff.1 ends
  obtain ⟨id, rfl⟩ : ∃ id, v = .ret id (.int 7) := by
    cases v with
    | ret id w => exact ⟨id, congrArg _ (Value.identical_int_iff.1 seven)⟩
    | _ => simp [Value.isSignal, Value.unwrapped, Value.identical] at signal seven
  intro before after s
  have free : s.store.SignalFree := (Store.Binds.empty.enter fun _ _ found => by simp at found).bind trivial
  have more : after ≠ [] := List.ne_nil_of_length_eq_add_one length
  obtain ⟨program, inTurn, chunks⟩ := @statements_alike .unreached s free ⟨0, 0⟩ (before ++ after)
  have whole := program 99 .origin
  rw [run] at whole
  obtain ⟨budget, turn⟩ := (inTurn .origin _ t).1 ⟨99, run⟩
  obtain ⟨budget', chunk⟩ := (chunks before after rfl more _ t).1 ⟨99, whole⟩
  exact ⟨free, more, id, t, budget, budget', run, whole, turn, chunk⟩

end Monkey
