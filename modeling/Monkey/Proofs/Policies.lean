import Monkey.Evaluator
import Monkey.Proofs.Hereditary
import Monkey.Proofs.Worlds
import Monkey.Syntax.Nodes

namespace Monkey

namespace Evaluator

/-- Another world is at hand after `w` where the objects up to `n` are taken and `what` holds. -/
def Made {World : Type} [Preorder World] (Free : World → Identity → Prop) (w : World) (n : Identity)
    (what : World → Prop) : Prop :=
  ∃ w', w ≤ w' ∧ Free w' (n + 1) ∧ what w'

/-- What may be about in a world, with a rule for everything that evaluation makes or takes apart. -/
structure Policy (World : Type) [Preorder World] where
  /-- The values that may be bound, passed and kept. -/
  Admits : World → Value → Prop
  AdmitsTable : World → HashTable Value → Prop
  /-- The signals that may end an evaluation. -/
  AdmitsSignal : World → Signal → Prop
  /-- The nodes of a source that may be evaluated. -/
  AdmitsCode : SourceId → SyntaxNode → Prop
  /-- No object has this identity or a later one. -/
  Free : World → Identity → Prop
  admits_mono {w w' : World} {v : Value} : w ≤ w' → Admits w v → Admits w' v
  table_mono {w w' : World} {t : HashTable Value} : w ≤ w' → AdmitsTable w t → AdmitsTable w' t
  free_mono {w : World} {n m : Identity} : n ≤ m → Free w n → Free w m
  int {w : World} (n : Int64) : Admits w (.int n)
  bool {w : World} (b : Bool) : Admits w (.bool b)
  null {w : World} : Admits w .null
  builtin {w : World} (b : Builtin) : Admits w (.builtin b)
  str {w : World} {n : Identity} (text : String) : Free w n → Made Free w n (Admits · (.str n text))
  array {w : World} {n : Identity} {vs : List Value} :
    Free w n → (∀ v ∈ vs, Admits w v) → Made Free w n (Admits · (.array n vs))
  elements {w : World} {id : Identity} {vs : List Value} : Admits w (.array id vs) → ∀ v ∈ vs, Admits w v
  hash {w : World} {n : Identity} {t : HashTable Value} :
    Free w n → AdmitsTable w t → Made Free w n (Admits · (.hash n t))
  table {w : World} {id : Identity} {t : HashTable Value} : Admits w (.hash id t) → AdmitsTable w t
  empty {w : World} : AdmitsTable w {}
  insert {w : World} {t : HashTable Value} {h : HashKey} {key v : Value} : AdmitsTable w t → Admits w key →
    key.hashKey? = some h → Admits w v → AdmitsTable w (t.insert h key v)
  find {w : World} {t : HashTable Value} {h : HashKey} {p : Value × Value} :
    AdmitsTable w t → t.find? h = some p → Admits w p.2
  closure {w : World} {source : SourceId} {parameters : List Identifier} {b : Block} {place : Place} (scope : ScopeId) :
    AdmitsCode source (.expression (.function parameters b place)) →
    Admits w (.function ⟨⟨source, parameters, b, place⟩, scope⟩)
  body {w : World} {c : Closure} : Admits w (.function c) → AdmitsCode c.function.source (.block c.function.body)
  child {source : SourceId} {n m : SyntaxNode} : m ∈ n.children → AdmitsCode source n → AdmitsCode source m
  raised {w : World} {n : Identity} (message : String) :
    Free w n → Made Free w n (AdmitsSignal · (.error n message))
  errorValue {w : World} {id : Identity} {message : String} :
    Admits w (.error id message) → AdmitsSignal w (.error id message)
  returned {w : World} {n : Identity} {v : Value} :
    Free w n → Admits w v → Made Free w n (AdmitsSignal · (.ret n v))
  taken {w : World} {id : Identity} {v : Value} : AdmitsSignal w (.ret id v) → Admits w v
  signal_mono {w w' : World} {signal : Signal} : w ≤ w' → AdmitsSignal w signal → AdmitsSignal w' signal

namespace Policy

variable {World : Type} [Preorder World] (P : Policy World)

/-- All bound values are admitted, and the identities not yet given out are free. -/
structure Holds (w : World) (s : State) : Prop where
  store : s.store.Binds (P.Admits w)
  free : P.Free w s.objects

/-- A value as `good` says, or a signal that is admitted. -/
def Ends {α : Type} (good : World → α → Prop) (w : World) : Except Signal α → Prop
  | .ok a => good w a
  | .error signal => P.AdmitsSignal w signal

/-- The goal has admitted code, and only admitted values and tables are handed to it. -/
def Inputs (w : World) : Goal → Prop
  | .expression e site => P.AdmitsCode site.source (.expression e)
  | .expressions es site => ∀ e ∈ es, P.AdmitsCode site.source (.expression e)
  | .table t pairs site =>
    P.AdmitsTable w t ∧
      ∀ p ∈ pairs, P.AdmitsCode site.source (.expression p.1) ∧ P.AdmitsCode site.source (.expression p.2)
  | .statement st site => P.AdmitsCode site.source (.statement st)
  | .statements ss site => ∀ st ∈ ss, P.AdmitsCode site.source (.statement st)
  | .call callee arguments => P.Admits w callee ∧ ∀ v ∈ arguments, P.Admits w v

/-- What the goal is reached with is admitted. Statements may have no value. -/
def Results : (goal : Goal) → World → goal.Result → Prop
  | .expression .., w, v | .call .., w, v => P.Admits w v
  | .expressions .., w, vs => ∀ v ∈ vs, P.Admits w v
  | .table .., w, t => P.AdmitsTable w t
  | .statement .., w, v | .statements .., w, v => ∀ u ∈ v, P.Admits w u

/-- Where a goal may be called. -/
def Starts (w : World) (goal : Goal) (s : State) : Prop := P.Holds w s ∧ P.Inputs w goal

/-- How a goal may end. -/
def Finishes (w : World) (goal : Goal) (r : Except Signal goal.Result) (s : State) : Prop :=
  P.Holds w s ∧ P.Ends (P.Results goal) w r

/-- From any state where the policy holds the evaluation keeps to it in its calls, and ends where it holds, with a value
as `good` says or an admitted signal, if all goals do. -/
def Keeps {α : Type} (w : World) (m : Evaluator α) (good : World → α → Prop) : Prop :=
  ∀ s : State, P.Holds w s → (m s).EnsuresIn P.Starts P.Finishes w fun w' r t => P.Holds w' t ∧ P.Ends good w' r

variable {P} {w w' : World}

theorem Ends.later {α : Type} {good : World → α → Prop} {r : Except Signal α} (h : P.Ends good w r) (le : w ≤ w')
    (mono : ∀ a, good w a → good w' a) : P.Ends good w' r := by
  cases r with
  | ok a => exact mono a h
  | error signal => exact P.signal_mono le h

/-- What operators and built-in functions make of admitted values can be admitted. -/
theorem heritage {n : Identity} (free : P.Free w n) :
    Value.Heritage n (P.Admits w) fun v => Made P.Free w n (P.Admits · v) := by
  have simple {v : Value} (h : P.Admits w v) : Made P.Free w n (P.Admits · v) :=
    ⟨w, le_rfl, P.free_mono (Nat.le_succ n) free, h⟩
  exact {
    old := simple
    int := fun k => simple (P.int k)
    bool := fun b => simple (P.bool b)
    str := fun text => P.str text free
    null := simple P.null
    array := P.array free
    elements := P.elements }

section Rules

variable {α β : Type} {good : World → β → Prop}

theorem keeps_pure {b : β} (h : good w b) : P.Keeps w (pure b) good :=
  fun _ holds => ⟨w, le_rfl, holds, h⟩

theorem keeps_bind {m : Evaluator α} {f : α → Evaluator β} {mid : World → α → Prop} (h : P.Keeps w m mid)
    (next : ∀ w', w ≤ w' → ∀ a, mid w' a → P.Keeps w' (f a) good) : P.Keeps w (m >>= f) good := by
  intro s holds
  refine CallTree.EnsuresIn.andThen (h s holds) (fun w' le a t met => ?_) fun w' _ signal t met => met
  obtain ⟨holds', value⟩ := met
  exact next w' le a value t holds'

theorem keeps_call (goal : Goal) (h : P.Inputs w goal) : P.Keeps w (Routine.call goal) (P.Results goal) :=
  fun _ holds => ⟨w, le_rfl, ⟨holds, h⟩, fun w' _ _ _ met => ⟨w', le_rfl, met⟩⟩

theorem keeps_ofExcept {r : Except Signal β} (h : P.Ends good w r) : P.Keeps w (Routine.ofExcept r) good :=
  fun _ holds => ⟨w, le_rfl, holds, h⟩

theorem keeps_stop {signal : Signal} (h : P.AdmitsSignal w signal) : P.Keeps w (Routine.stop signal) good :=
  keeps_ofExcept (r := .error signal) h

/-- What is observed of an evaluation is a good value or an admitted signal. -/
theorem keeps_attempt {m : Evaluator β} (h : P.Keeps w m good) : P.Keeps w m.attempt (P.Ends good) :=
  fun s holds => CallTree.EnsuresIn.observe (h s holds)

theorem keeps_get {f : State → Evaluator β} (h : ∀ s : State, s.store.Binds (P.Admits w) → P.Keeps w (f s) good) :
    P.Keeps w (Routine.get >>= f) good :=
  fun s holds => h s holds.store s holds

/-- A new identity may be taken by an object that is made with it. -/
theorem keeps_fresh {f : Identity → Evaluator β}
    (h : ∀ n, P.Free w n → Made P.Free w n fun w' => P.Keeps w' (f n) good) : P.Keeps w (fresh >>= f) good := by
  intro s holds
  obtain ⟨w', le, free, keeps⟩ := h s.objects holds.free
  have holds' : P.Holds w' { s with objects := s.objects + 1 } := ⟨holds.store.mono fun _ => P.admits_mono le, free⟩
  exact (keeps _ holds').earlier le

theorem keeps_modifyStore {f : Store → Store}
    (h : ∀ s : Store, s.Binds (P.Admits w) → (f s).Binds (P.Admits w)) :
    P.Keeps w (modifyStore f) fun _ _ => True :=
  fun _ holds => ⟨w, le_rfl, ⟨h _ holds.store, holds.free⟩, trivial⟩

theorem keeps_raise {e : RuntimeError} : P.Keeps w (raise e) good := by
  refine keeps_fresh fun n free => ?_
  obtain ⟨w', le, free', admitted⟩ := P.raised e.message free
  exact ⟨w', le, free', keeps_stop admitted⟩

theorem keeps_ofResult {r : Except RuntimeError β} (h : ∀ b, r = .ok b → good w b) : P.Keeps w (ofResult r) good := by
  cases r with
  | ok b => exact keeps_pure (h b rfl)
  | error e => exact keeps_raise

/-- What is made with a new identity, or the error instead of it. -/
theorem keeps_made {f : Identity → Except RuntimeError Value}
    (made : ∀ n, P.Free w n → ∀ v, f n = .ok v → Made P.Free w n (P.Admits · v)) :
    P.Keeps w (fresh >>= fun n => ofResult (f n)) P.Admits := by
  refine keeps_fresh fun n free => ?_
  cases result : f n with
  | ok v =>
    obtain ⟨w', le, free', admitted⟩ := made n free v result
    exact ⟨w', le, free', keeps_pure admitted⟩
  | error e => exact ⟨w, le_rfl, P.free_mono (Nat.le_succ n) free, keeps_raise⟩

end Rules

section Productions

variable {site : Site}

theorem keeps_expression {e : Expr} (code : P.AdmitsCode site.source (.expression e)) :
    P.Keeps w (expression e site) P.Admits :=
  keeps_call (.expression e site) code

theorem keeps_expressions {es : List Expr} (code : ∀ e ∈ es, P.AdmitsCode site.source (.expression e)) :
    P.Keeps w (expressions es site) fun w' vs => ∀ v ∈ vs, P.Admits w' v :=
  keeps_call (.expressions es site) code

theorem keeps_statement {st : Statement} (code : P.AdmitsCode site.source (.statement st)) :
    P.Keeps w (statement st site) fun w' v => ∀ u ∈ v, P.Admits w' u :=
  keeps_call (.statement st site) code

theorem keeps_statements {ss : List Statement} (code : ∀ st ∈ ss, P.AdmitsCode site.source (.statement st)) :
    P.Keeps w (statements ss site) fun w' v => ∀ u ∈ v, P.Admits w' u :=
  keeps_call (.statements ss site) code

theorem admits_getD {v : Option Value} (h : ∀ u ∈ v, P.Admits w u) : P.Admits w (v.getD .null) := by
  cases v with
  | none => exact P.null
  | some u => exact h u rfl

theorem keeps_name (id : String) : P.Keeps w (name id site) P.Admits := by
  unfold name
  refine keeps_get fun s binds => ?_
  split
  · next v found => exact keeps_pure (binds.lookup? found)
  · split
    · exact keeps_pure (P.builtin _)
    · exact keeps_raise

theorem keeps_hashKey (key : Value) : P.Keeps w (hashKey key) fun _ h => key.hashKey? = some h := by
  unfold hashKey
  split
  · next h own => exact keeps_pure own
  · exact keeps_raise

theorem keeps_index {base key : Value} (h : P.Admits w base) : P.Keeps w (index base key) P.Admits := by
  unfold index
  split
  · next id vs i =>
    refine keeps_pure ?_
    split
    · exact P.null
    · exact admits_getD fun v mem => P.elements h v (List.mem_of_getElem? mem)
  · next id t =>
    refine keeps_bind (keeps_hashKey _) fun w' le place _ => keeps_pure ?_
    have table := P.table (P.admits_mono le h)
    cases found : t.find? place with
    | none => exact P.null
    | some p => exact P.find table found
  · exact keeps_raise

theorem keeps_block {last : Option Value} {ss : List Statement} (before : ∀ u ∈ last, P.Admits w u)
    (code : ∀ st ∈ ss, P.AdmitsCode site.source (.statement st)) :
    P.Keeps w (block site last ss) fun w' v => ∀ u ∈ v, P.Admits w' u := by
  induction ss generalizing last w with
  | nil => exact keeps_pure before
  | cons st ss ih =>
    refine keeps_bind (keeps_statement (code st (.head _))) fun w' _ v admitted => ?_
    exact ih admitted fun st mem => code st (.tail _ mem)

/-- The statements of a block may be evaluated with it. -/
theorem statements_admitted {source : SourceId} {b : Block} (code : P.AdmitsCode source (.block b)) :
    ∀ st ∈ b.statements, P.AdmitsCode source (.statement st) :=
  fun _ mem => P.child (List.mem_map_of_mem mem) code

theorem keeps_branch {b : Option Block} (code : ∀ b' ∈ b, P.AdmitsCode site.source (.block b')) :
    P.Keeps w (branch b site) P.Admits := by
  unfold branch
  split
  · next b =>
    refine keeps_bind (keeps_statements (statements_admitted (code b rfl))) fun w' _ v admitted => ?_
    exact keeps_pure (admits_getD admitted)
  · exact keeps_pure P.null

theorem ends_callOutcome {r : Except Signal (Option Value)} (h : P.Ends (fun w' v => ∀ u ∈ v, P.Admits w' u) w r) :
    P.Ends P.Admits w (callOutcome r) := by
  unfold callOutcome
  split
  · exact admits_getD h
  · exact P.taken h
  · exact h

theorem binds_releaseScope {release : Release} {scope : ScopeId} {outcome : Except Signal Value} {s : Store}
    {Q : Value → Prop} (h : s.Binds Q) : (releaseScope release scope outcome s).Binds Q := by
  unfold releaseScope
  split
  · exact h
  · split
    · exact h
    · exact h.clear
  · exact h.clear

theorem keeps_enterClosure {release : Release} {c : Closure} {arguments : List Value}
    (callee : P.Admits w (.function c)) (each : ∀ v ∈ arguments, P.Admits w v) :
    P.Keeps w (enterClosure release c arguments) P.Admits := by
  unfold enterClosure
  dsimp only
  split
  · have entered : P.Keeps w (Routine.modifyGet fun s : State =>
        ((s.store.enter (some c.scope) (bindParameters c.function.parameters arguments)).1,
          { s with store := (s.store.enter (some c.scope) (bindParameters c.function.parameters arguments)).2 }))
        fun _ _ => True :=
      fun _ holds =>
        ⟨w, le_rfl, ⟨holds.store.enter fun _ v found => each v (mem_of_bindParameters found), holds.free⟩, trivial⟩
    refine keeps_bind entered fun w₁ le₁ scope _ => ?_
    have code := statements_admitted (P.body (P.admits_mono le₁ callee))
    refine keeps_bind (keeps_attempt (keeps_statements code)) fun w₂ le₂ r ends => ?_
    refine keeps_bind (keeps_modifyStore fun _ => binds_releaseScope) fun w₃ le₃ _ _ => ?_
    exact keeps_ofExcept ((ends_callOutcome ends).later le₃ fun _ => P.admits_mono le₃)
  · exact keeps_raise

theorem keeps_enterBuiltin {b : Builtin} {arguments : List Value} (each : ∀ v ∈ arguments, P.Admits w v) :
    P.Keeps w (enterBuiltin b arguments) P.Admits := by
  unfold enterBuiltin
  have printed : P.Keeps w (Routine.modify fun s : State => { s with printer := b.print arguments s.printer })
      fun _ _ => True := fun _ holds => ⟨w, le_rfl, ⟨holds.store, holds.free⟩, trivial⟩
  refine keeps_bind printed fun w₁ le₁ _ _ => ?_
  have made : P.Keeps w₁ (fresh >>= fun n => ofResult (b.result n arguments)) P.Admits :=
    keeps_made fun n free v => (heritage free).builtin fun u mem => P.admits_mono le₁ (each u mem)
  rw [← bind_assoc]
  refine keeps_bind made fun w₂ _ v admitted => ?_
  split
  · exact keeps_stop (P.errorValue admitted)
  · exact keeps_pure admitted

theorem keeps_performExpression (release : Release) {e : Expr} (code : P.AdmitsCode site.source (.expression e)) :
    P.Keeps w (perform release (.expression e site)) P.Admits := by
  have child {m : SyntaxNode} (mem : m ∈ (SyntaxNode.expression e).children) : P.AdmitsCode site.source m :=
    P.child mem code
  cases e with
  | name id => exact keeps_name id.name
  | int n _ => exact keeps_pure (P.int n)
  | str text _ =>
    refine keeps_fresh fun n free => ?_
    obtain ⟨w', le, free', admitted⟩ := P.str text free
    exact ⟨w', le, free', keeps_pure admitted⟩
  | bool b _ => exact keeps_pure (P.bool b)
  | unary op operand _ =>
    refine keeps_bind (keeps_expression (child (.head _))) fun w' _ v _ => ?_
    refine keeps_ofResult fun u made => ?_
    obtain ⟨b, rfl⟩ | ⟨k, rfl⟩ := Value.bool_or_int_of_unary made
    · exact P.bool b
    · exact P.int k
  | binary op left right _ =>
    refine keeps_bind (keeps_expression (child (.head _))) fun _ _ u _ => ?_
    refine keeps_bind (keeps_expression (child (.tail _ (.head _)))) fun _ _ v _ => ?_
    exact keeps_made fun n free r => (heritage free).binary
  | cond c consequence alternative _ =>
    refine keeps_bind (keeps_expression (child (.head _))) fun _ _ v _ => keeps_branch fun b mem => ?_
    split at mem
    · cases mem
      exact child (.tail _ (.head _))
    · cases mem
      exact child (.tail _ (.tail _ (.head _)))
  | function parameters body place =>
    refine keeps_bind (keeps_modifyStore fun _ binds => binds.capture) fun _ _ _ _ => ?_
    exact keeps_pure (P.closure site.scope code)
  | call f arguments _ =>
    refine keeps_bind (keeps_expression (child (.head _))) fun _ _ callee admitted => ?_
    have others : ∀ e ∈ arguments, P.AdmitsCode site.source (.expression e) :=
      fun e mem => child (.tail _ (List.mem_map_of_mem mem))
    refine keeps_bind (keeps_expressions others) fun w' le vs each => ?_
    exact keeps_call (.call callee vs) ⟨P.admits_mono le admitted, each⟩
  | array es _ =>
    have elements : ∀ e ∈ es, P.AdmitsCode site.source (.expression e) :=
      fun e mem => child (List.mem_map_of_mem mem)
    refine keeps_bind (keeps_expressions elements) fun _ _ vs each => keeps_fresh fun n free => ?_
    obtain ⟨w', le, free', admitted⟩ := P.array free each
    exact ⟨w', le, free', keeps_pure admitted⟩
  | index base i _ =>
    refine keeps_bind (keeps_expression (child (.head _))) fun _ _ v admitted => ?_
    refine keeps_bind (keeps_expression (child (.tail _ (.head _)))) fun _ le key _ => ?_
    exact keeps_index (P.admits_mono le admitted)
  | hash pairs _ =>
    have entries : ∀ p ∈ pairs,
        P.AdmitsCode site.source (.expression p.1) ∧ P.AdmitsCode site.source (.expression p.2) := by
      intro p mem
      constructor
      · exact child (List.mem_flatMap.2 ⟨p, mem, .head _⟩)
      · exact child (List.mem_flatMap.2 ⟨p, mem, .tail _ (.head _)⟩)
    refine keeps_bind (keeps_call (.table {} pairs site) ⟨P.empty, entries⟩) fun _ _ t admitted => ?_
    refine keeps_fresh fun n free => ?_
    obtain ⟨w', le, free', admitted'⟩ := P.hash free admitted
    exact ⟨w', le, free', keeps_pure admitted'⟩

/-- What is done for a goal keeps to the policy, if its inputs do. -/
theorem keeps_perform (release : Release) {goal : Goal} (inputs : P.Inputs w goal) :
    P.Keeps w (perform release goal) (P.Results goal) := by
  cases goal with
  | expression e site => exact keeps_performExpression release inputs
  | expressions es site =>
    cases es with
    | nil => exact keeps_pure fun _ mem => nomatch mem
    | cons e es =>
      refine keeps_bind (keeps_expression (inputs e (.head _))) fun _ _ v first => ?_
      refine keeps_bind (keeps_expressions fun e mem => inputs e (.tail _ mem)) fun _ le vs others => ?_
      exact keeps_pure (List.forall_mem_cons.2 ⟨P.admits_mono le first, others⟩)
  | table t pairs site =>
    obtain ⟨table, code⟩ := inputs
    cases pairs with
    | nil => exact keeps_pure table
    | cons p pairs =>
      obtain ⟨keyCode, valueCode⟩ := code p (.head _)
      refine keeps_bind (keeps_expression keyCode) fun w₁ le₁ key admittedKey => ?_
      refine keeps_bind (keeps_hashKey key) fun w₂ le₂ h own => ?_
      refine keeps_bind (keeps_expression valueCode) fun w₃ le₃ v admittedValue => ?_
      have table₃ := P.table_mono (le₁.trans (le₂.trans le₃)) table
      have key₃ := P.admits_mono (le₂.trans le₃) admittedKey
      exact keeps_call (.table (t.insert h key v) pairs site)
        ⟨P.insert table₃ key₃ own admittedValue, fun p mem => code p (.tail _ mem)⟩
  | statement st site =>
    have child {m : SyntaxNode} (mem : m ∈ (SyntaxNode.statement st).children) : P.AdmitsCode site.source m :=
      P.child mem inputs
    cases st with
    | bind id e _ =>
      refine keeps_bind (keeps_expression (child (.tail _ (.head _)))) fun _ _ v admitted => ?_
      refine keeps_bind (keeps_modifyStore fun _ binds => binds.bind admitted) fun _ _ _ _ => ?_
      exact keeps_pure fun _ mem => nomatch mem
    | ret value _ =>
      cases value with
      | none =>
        refine keeps_fresh fun n free => ?_
        obtain ⟨w', le, free', admitted⟩ := P.returned free P.null
        exact ⟨w', le, free', keeps_stop admitted⟩
      | some e =>
        refine keeps_bind (keeps_expression (child (.head _))) fun _ _ v admitted => keeps_fresh fun n free => ?_
        obtain ⟨w', le, free', admitted'⟩ := P.returned free admitted
        exact ⟨w', le, free', keeps_stop admitted'⟩
    | expr e =>
      refine keeps_bind (keeps_expression (child (.head _))) fun _ _ v admitted => keeps_pure fun u mem => ?_
      cases mem
      exact admitted
  | statements ss site => exact keeps_block (fun _ mem => nomatch mem) inputs
  | call callee arguments =>
    obtain ⟨admitted, each⟩ := inputs
    cases callee with
    | function c => exact keeps_enterClosure admitted each
    | builtin b => exact keeps_enterBuiltin each
    | _ => exact keeps_raise

end Productions

section Runs

variable {α : Type} {good : World → α → Prop} {release : Release} {m : Evaluator α} {s : State}

theorem meets (release : Release) (w : World) (goal : Goal) (s : State) (starts : P.Starts w goal s) :
    (perform release goal s).EnsuresIn P.Starts P.Finishes w fun w' => P.Finishes w' goal :=
  keeps_perform release starts.2 s starts.1

/-- A run that begins where the policy holds keeps to it at all times, also if it is broken off. -/
theorem Keeps.course {moments : List (CallTree.Moment Goal.Result State Signal)}
    {finish : Option (Except Signal α × State)} (keeps : P.Keeps w m good) (holds : P.Holds w s)
    (course : CallTree.Course (perform release) moments (m s) finish) :
    ∃ w', w ≤ w' ∧ (∀ x ∈ moments, ∃ w'', w'' ≤ w' ∧ x.Meets P.Starts P.Finishes w'') ∧
      ∀ r t, finish = some (r, t) → P.Holds w' t ∧ P.Ends good w' r :=
  course.ensuresIn (meets release) (keeps s holds)

theorem Keeps.returns {r : Except Signal α} {t : State} (keeps : P.Keeps w m good) (holds : P.Holds w s)
    (h : CallTree.Returns (perform release) (m s) r t) : ∃ w', w ≤ w' ∧ P.Holds w' t ∧ P.Ends good w' r :=
  h.ensuresIn (meets release) (keeps s holds)

end Runs

section Lasting

/-- The value may be bound, passed and kept at any time: a simple value, a built-in function, a closure, or an array or
hash of such. An error may not. -/
structure Lasting (Q : Value → Prop) (T : HashTable Value → Prop) : Prop extends Value.Hereditary Q where
  builtin (b : Builtin) : Q (.builtin b)
  function (c : Closure) : Q (.function c)
  error (id : Identity) (message : String) : ¬ Q (.error id message)
  hash (id : Identity) (t : HashTable Value) : Q (.hash id t) ↔ T t
  empty : T {}
  insert {t : HashTable Value} {h : HashKey} {key v : Value} :
    T t → Q key → key.hashKey? = some h → Q v → T (t.insert h key v)
  find {t : HashTable Value} {h : HashKey} {p : Value × Value} : T t → t.find? h = some p → Q p.2

variable {Q : Value → Prop} {T : HashTable Value → Prop}

/-- Lasting values are admitted at any time, and so is every error and the return of a lasting value. -/
def ofLasting (lasting : Lasting Q T) : Policy CallTree.Timeless where
  Admits _ := Q
  AdmitsTable _ := T
  AdmitsSignal
    | _, .error .. => True
    | _, .ret _ v => Q v
  AdmitsCode _ _ := True
  Free _ _ := True
  admits_mono _ h := h
  table_mono _ h := h
  signal_mono _ h := h
  free_mono _ h := h
  int := lasting.int
  bool := lasting.bool
  null := lasting.null
  builtin := lasting.builtin
  str text _ := ⟨⟨⟩, le_rfl, trivial, lasting.str _ text⟩
  array _ h := ⟨⟨⟩, le_rfl, trivial, (lasting.array _ _).2 h⟩
  elements h := (lasting.array _ _).1 h
  hash _ h := ⟨⟨⟩, le_rfl, trivial, (lasting.hash _ _).2 h⟩
  table h := (lasting.hash _ _).1 h
  empty := lasting.empty
  insert := lasting.insert
  find := lasting.find
  closure _ _ := lasting.function _
  body _ := trivial
  child _ _ := trivial
  raised _ _ := ⟨⟨⟩, le_rfl, trivial, trivial⟩
  errorValue h := (lasting.error _ _ h).elim
  returned _ h := ⟨⟨⟩, le_rfl, trivial, h⟩
  taken h := h

end Lasting

end Policy

end Evaluator

end Monkey
