import Monkey.Proofs.Ensures
import Monkey.Proofs.Runs
import Monkey.Session

namespace Monkey

/-- The printer `q` has printed all that `p` has, and then perhaps more. -/
def Printer.Continues (p q : Printer) : Prop := ∃ more, q.written = p.written ++ more

namespace Printer.Continues

theorem refl (p : Printer) : p.Continues p := ⟨"", String.append_empty.symm⟩

theorem trans {p q r : Printer} (first : p.Continues q) (second : q.Continues r) : p.Continues r := by
  obtain ⟨more, written⟩ := first
  obtain ⟨more', written'⟩ := second
  exact ⟨more ++ more', by rw [written', written, String.append_assoc]⟩

theorem println (p : Printer) (line : String) : p.Continues (p.println line) := by
  unfold Printer.println
  split
  · exact refl p
  · exact ⟨line ++ "\n", String.append_assoc ..⟩

theorem print (b : Builtin) (arguments : List Value) (p : Printer) : p.Continues (b.print arguments p) := by
  have lines (vs : List Value) (p : Printer) : p.Continues (vs.foldl (fun p v => p.println v.inspect) p) := by
    induction vs generalizing p with
    | nil => exact refl p
    | cons v vs ih => exact (println p v.inspect).trans (ih _)
  unfold Builtin.print
  split
  · exact lines arguments p
  · exact refl p

end Printer.Continues

namespace Evaluator

/-- The evaluation, from any state, only adds to what is printed, if all goals do. -/
def Prints {α : Type} (m : Evaluator α) : Prop :=
  ∀ s : State, (m s).Ensures (fun _ _ => True) (fun _ s _ _ t => s.printer.Continues t.printer)
    fun _ _ t => s.printer.Continues t.printer

section Rules

variable {α β : Type}

theorem prints_pure (b : β) : Prints (pure b) := fun s => .refl s.printer

theorem prints_stop (signal : Signal) : Prints (Routine.stop signal : Evaluator β) := fun s => .refl s.printer

theorem prints_ofExcept (r : Except Signal β) : Prints (Routine.ofExcept r) := fun s => .refl s.printer

theorem prints_bind {m : Evaluator α} {f : α → Evaluator β} (h : Prints m) (next : ∀ a, Prints (f a)) :
    Prints (m >>= f) := by
  intro s
  refine CallTree.Ensures.andThen (h s) (fun _ a t first => ?_) fun _ _ _ first => first
  exact (next a t).mono (fun _ _ allowed => allowed) fun _ _ _ second => first.trans second

theorem prints_call (goal : Goal) : Prints (Routine.call goal) := fun _ => ⟨trivial, fun _ _ _ met => met⟩

theorem prints_attempt {m : Evaluator β} (h : Prints m) : Prints m.attempt :=
  fun s => CallTree.Ensures.observe (h s)

theorem prints_get : Prints (Routine.get : Evaluator State) := fun s => .refl s.printer

/-- A step that changes nothing of the printer. -/
theorem prints_modifyGet {f : State → β × State} (h : ∀ s, (f s).2.printer = s.printer) :
    Prints (Routine.modifyGet f) := by
  intro s
  have same := h s
  rw [Routine.modifyGet_apply]
  change s.printer.Continues (f s).2.printer
  rw [same]
  exact .refl s.printer

theorem prints_fresh : Prints fresh := prints_modifyGet fun _ => rfl

theorem prints_modifyStore (f : Store → Store) : Prints (modifyStore f) := fun s => .refl s.printer

theorem prints_raise (e : RuntimeError) : Prints (raise e : Evaluator β) :=
  prints_bind prints_fresh fun _ => prints_stop _

theorem prints_ofResult (r : Except RuntimeError β) : Prints (ofResult r) := by
  cases r with
  | ok b => exact prints_pure b
  | error e => exact prints_raise e

end Rules

section Productions

theorem prints_name (id : String) (site : Site) : Prints (name id site) := by
  unfold name
  refine prints_bind prints_get fun s => ?_
  split
  · exact prints_pure _
  · split
    · exact prints_pure _
    · exact prints_raise _

theorem prints_hashKey (key : Value) : Prints (hashKey key) := by
  unfold hashKey
  split
  · exact prints_pure _
  · exact prints_raise _

theorem prints_index (base key : Value) : Prints (index base key) := by
  unfold index
  split
  · exact prints_pure _
  · exact prints_bind (prints_hashKey _) fun _ => prints_pure _
  · exact prints_raise _

theorem prints_block (site : Site) (last : Option Value) (ss : List Statement) : Prints (block site last ss) := by
  induction ss generalizing last with
  | nil => exact prints_pure _
  | cons st ss ih => exact prints_bind (prints_call _) ih

theorem prints_branch (b : Option Block) (site : Site) : Prints (branch b site) := by
  cases b with
  | none => exact prints_pure _
  | some b => exact prints_bind (prints_call _) fun _ => prints_pure _

theorem prints_enterClosure (release : Release) (c : Closure) (arguments : List Value) :
    Prints (enterClosure release c arguments) := by
  unfold enterClosure
  dsimp only
  split
  · refine prints_bind (prints_modifyGet fun _ => rfl) fun scope => ?_
    refine prints_bind (prints_attempt (prints_call _)) fun r => ?_
    exact prints_bind (prints_modifyStore _) fun _ => prints_ofExcept _
  · exact prints_raise _

/-- Here alone something is printed. -/
theorem prints_enterBuiltin (b : Builtin) (arguments : List Value) : Prints (enterBuiltin b arguments) := by
  unfold enterBuiltin
  refine prints_bind (fun s => Printer.Continues.print b arguments s.printer) fun _ => ?_
  refine prints_bind prints_fresh fun identity => ?_
  refine prints_bind (prints_ofResult _) fun v => ?_
  split
  · exact prints_stop _
  · exact prints_pure _

theorem prints_produceExpression (release : Release) (e : Expr) (site : Site) :
    Prints (perform release (.expression e site)) := by
  cases e with
  | name id => exact prints_name id.name site
  | int | bool => exact prints_pure _
  | str => exact prints_bind prints_fresh fun _ => prints_pure _
  | unary => exact prints_bind (prints_call _) fun _ => prints_ofResult _
  | binary =>
    refine prints_bind (prints_call _) fun _ => prints_bind (prints_call _) fun _ => ?_
    exact prints_bind prints_fresh fun _ => prints_ofResult _
  | cond => exact prints_bind (prints_call _) fun _ => prints_branch _ site
  | function => exact prints_bind (prints_modifyStore _) fun _ => prints_pure _
  | call => exact prints_bind (prints_call _) fun _ => prints_bind (prints_call _) fun _ => prints_call _
  | array => exact prints_bind (prints_call _) fun _ => prints_bind prints_fresh fun _ => prints_pure _
  | index => exact prints_bind (prints_call _) fun _ => prints_bind (prints_call _) fun _ => prints_index _ _
  | hash => exact prints_bind (prints_call _) fun _ => prints_bind prints_fresh fun _ => prints_pure _

theorem prints_perform (release : Release) (goal : Goal) : Prints (perform release goal) := by
  cases goal with
  | expression e site => exact prints_produceExpression release e site
  | expressions es site =>
    cases es with
    | nil => exact prints_pure _
    | cons => exact prints_bind (prints_call _) fun _ => prints_bind (prints_call _) fun _ => prints_pure _
  | table t pairs site =>
    cases pairs with
    | nil => exact prints_pure _
    | cons =>
      refine prints_bind (prints_call _) fun key => prints_bind (prints_hashKey key) fun _ => ?_
      exact prints_bind (prints_call _) fun _ => prints_call _
  | statement st site =>
    cases st with
    | bind => exact prints_bind (prints_call _) fun _ => prints_bind (prints_modifyStore _) fun _ => prints_pure _
    | ret value =>
      cases value with
      | none => exact prints_bind prints_fresh fun _ => prints_stop _
      | some => exact prints_bind (prints_call _) fun _ => prints_bind prints_fresh fun _ => prints_stop _
    | expr => exact prints_bind (prints_call _) fun _ => prints_pure _
  | statements ss site => exact prints_block site none ss
  | call callee arguments =>
    cases callee with
    | function c => exact prints_enterClosure release c arguments
    | builtin b => exact prints_enterBuiltin b arguments
    | _ => exact prints_raise _

end Productions

end Evaluator

namespace Session

theorem continues_evalNode (s : Session) (node : Node) (site : Evaluator.Site) :
    s.state.printer.Continues (s.evalNode node site).2.state.printer := by
  refine after_evalNode (P := fun t => s.state.printer.Continues t.state.printer) (.refl s.state.printer)
    fun v t run => ?_
  obtain ⟨r, returns, _⟩ := Interpreter.exists_returns_of_evalNode run
  have meets (goal : Evaluator.Goal) (u : Evaluator.State) (_ : True) :=
    Evaluator.prints_perform s.interpreter.release goal u
  exact returns.ensures meets (meets (node.goal site) s.state trivial)

/-- Evaluating a source adds to what is printed, or leaves it. -/
theorem continues_evalSource (s : Session) (source : String) :
    s.state.printer.Continues (s.evalSource source).2.state.printer :=
  after_evalSource (P := fun t => s.state.printer.Continues t.state.printer) (.refl s.state.printer) fun p =>
    continues_evalNode s.load.2 (.program p) _

end Session

end Monkey
