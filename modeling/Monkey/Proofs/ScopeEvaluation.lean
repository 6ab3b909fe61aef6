import Monkey.Proofs.Ensures
import Monkey.Proofs.Hereditary
import Monkey.Proofs.Runs
import Monkey.Proofs.ScopeFrame

namespace Monkey

/-- All closures in the value are over scopes with the property. -/
def Value.Over (Q : ScopeId → Prop) (v : Value) : Prop := ∀ c ∈ v.scopes, Q c

theorem Value.Over.mono {Q Q' : ScopeId → Prop} {v : Value} (h : v.Over Q) (le : ∀ c, Q c → Q' c) : v.Over Q' :=
  fun c mem => le c (h c mem)

/-- Values without closures are over any scopes, and an array is over those of its elements. -/
theorem Value.hereditary_over (Q : ScopeId → Prop) : Hereditary (Over Q) where
  int _ := fun _ mem => nomatch mem
  bool _ := fun _ mem => nomatch mem
  str _ _ := fun _ mem => nomatch mem
  null := fun _ mem => nomatch mem
  array _ vs := by
    simp only [Over, mem_scopes_array]
    constructor
    · exact fun h v mem c inside => h c ⟨v, mem, inside⟩
    · rintro h c ⟨v, mem, inside⟩
      exact h v mem c inside

theorem Value.hereditary_within (n : Nat) : Hereditary (Within n) := hereditary_over (· < n)

/-- All closures among the values of the table are over the first `n` scopes. -/
def HashTable.Within (n : Nat) (t : HashTable Value) : Prop := ∀ p ∈ t.entries, p.2.Within n

theorem HashTable.Within.mono {n m : Nat} {t : HashTable Value} (h : t.Within n) (le : n ≤ m) : t.Within m :=
  fun p mem => (h p mem).mono le

theorem HashTable.within_empty (n : Nat) : HashTable.Within n {} := by
  intro p mem
  simp at mem

theorem HashTable.Within.insert {n : Nat} {t : HashTable Value} {h : HashKey} {key value : Value} (within : t.Within n)
    (new : value.Within n) : (t.insert h key value).Within n :=
  HashTable.forall_entries_insert within new

theorem HashTable.Within.find? {n : Nat} {t : HashTable Value} {h : HashKey} {p : Value × Value} (within : t.Within n)
    (found : t.find? h = some p) : p.2.Within n :=
  HashTable.of_find? within found

namespace Evaluator

/-- The scope that the goal is reached in. A call runs in none of those that are there when it begins. -/
def Goal.own? : Goal → Option ScopeId
  | .expression _ site | .expressions _ site | .table _ _ site | .statement _ site | .statements _ site =>
    some site.scope
  | .call .. => none

/-- The scope of the goal is one of the first `n`, and so are those of all closures handed to it. -/
def Goal.Within (n : Nat) : Goal → Prop
  | .expression _ site | .expressions _ site | .statement _ site | .statements _ site => site.scope < n
  | .table t _ site => site.scope < n ∧ t.Within n
  | .call callee arguments => callee.Within n ∧ ∀ v ∈ arguments, v.Within n

/-- The closures in what the goal is reached with are over the first `n` scopes. -/
def Goal.ResultWithin : (goal : Goal) → Nat → goal.Result → Prop
  | .expression .., n, v | .call .., n, v => v.Within n
  | .expressions .., n, vs => ∀ v ∈ vs, v.Within n
  | .table .., n, t => t.Within n
  | .statement .., n, v | .statements .., n, v => ∀ w ∈ v, w.Within n

def Signal.Within (n : Nat) : Signal → Prop
  | .error .. => True
  | .ret _ v => v.Within n

/-- A value as `value` says for `n` scopes, or a signal whose closures are over the first `n` scopes. -/
def EndWithin {α : Type} (value : Nat → α → Prop) (n : Nat) : Except Signal α → Prop
  | .ok a => value n a
  | .error signal => signal.Within n

/-- What is known of the end of a goal by itself. -/
def Goal.Leaves (goal : Goal) (s : State) (r : Except Signal goal.Result) (t : State) : Prop :=
  s.store.Frame goal.own? t.store ∧ t.store.Sound ∧ EndWithin goal.ResultWithin t.store.size r

/-- From any sound store with at least `n` scopes the evaluation leaves alone what `Store.Frame own` says, at the
end as at every call on the way, and ends with a sound store and as `value` says, if all goals do. -/
def Stays {α : Type} (own : Option ScopeId) (n : Nat) (m : Evaluator α) (value : Nat → α → Prop) : Prop :=
  ∀ s : State, s.store.Sound → n ≤ s.store.size →
    (m s).Ensures (fun goal t => t.store.Sound ∧ goal.Within t.store.size)
      (fun goal s _ r t =>
        s.store.Frame goal.own? t.store ∧ t.store.Sound ∧ EndWithin goal.ResultWithin t.store.size r)
      fun _ r t => s.store.Frame own t.store ∧ t.store.Sound ∧ EndWithin value t.store.size r

section Rules

variable {α β : Type} {own : Option ScopeId} {n : Nat} {value : Nat → β → Prop}

theorem stays_pure {b : β} (h : ∀ k, n ≤ k → value k b) : Stays own n (pure b) value :=
  fun s sound le => ⟨.refl own s.store, sound, h _ le⟩

theorem stays_bind {m : Evaluator α} {f : α → Evaluator β} {mid : Nat → α → Prop} (h : Stays own n m mid)
    (next : ∀ k a, n ≤ k → mid k a → Stays own k (f a) value) : Stays own n (m >>= f) value := by
  intro s sound le
  refine CallTree.Ensures.andThen (h s sound le) (fun _ a t met => ?_) fun _ signal t met => met
  obtain ⟨frame, sound', reached⟩ := met
  have later := next t.store.size a (Nat.le_trans le frame.size_le) reached t sound' (Nat.le_refl _)
  exact later.mono (fun _ _ allowed => allowed) fun _ r u ⟨frame', rest⟩ =>
    ⟨frame.trans frame' fun _ _ same => same, rest⟩

/-- A goal may be called in the scope that is evaluated in, and a closure or built-in function in any. -/
theorem stays_call (goal : Goal) (h : ∀ k, n ≤ k → goal.Within k) (narrow : ∀ id, goal.own? = some id → own = some id) :
    Stays own n (Routine.call goal) goal.ResultWithin :=
  fun s sound le => ⟨⟨sound, h _ le⟩, fun _ _ _ ⟨frame, rest⟩ =>
    ⟨(Store.Frame.refl own s.store).trans frame fun id _ same => narrow id same, rest⟩⟩

theorem stays_stop {signal : Signal} (h : ∀ k, n ≤ k → signal.Within k) : Stays own n (Routine.stop signal) value :=
  fun s sound le => ⟨.refl own s.store, sound, h _ le⟩

theorem stays_get {f : State → Evaluator β}
    (h : ∀ s : State, s.store.Sound → n ≤ s.store.size → Stays own s.store.size (f s) value) :
    Stays own n (Routine.get >>= f) value :=
  fun s sound le => h s sound le s sound (Nat.le_refl _)

theorem stays_fresh : Stays own n fresh fun _ _ => True :=
  fun s sound _ => ⟨.refl own s.store, sound, trivial⟩

theorem stays_modifyStore {f : Store → Store}
    (h : ∀ s : Store, s.Sound → n ≤ s.size → s.Frame own (f s) ∧ (f s).Sound) :
    Stays own n (modifyStore f) fun _ _ => True :=
  fun s sound le => ⟨(h s.store sound le).1, (h s.store sound le).2, trivial⟩

theorem stays_raise {e : RuntimeError} : Stays own n (raise e) value :=
  stays_bind stays_fresh fun _ _ _ _ => stays_stop fun _ _ => trivial

theorem stays_ofResult {r : Except RuntimeError β} (h : ∀ b, r = .ok b → ∀ k, n ≤ k → value k b) :
    Stays own n (ofResult r) value := by
  cases r with
  | ok b => exact stays_pure (h b rfl)
  | error e => exact stays_raise

end Rules

section Productions

variable {n : Nat} {site : Site}

theorem stays_expression (e : Expr) (lt : site.scope < n) :
    Stays (some site.scope) n (expression e site) fun k v => v.Within k :=
  stays_call (.expression e site) (fun _ le => Nat.lt_of_lt_of_le lt le) fun _ same => same

theorem stays_expressions (es : List Expr) (lt : site.scope < n) :
    Stays (some site.scope) n (expressions es site) fun k vs => ∀ v ∈ vs, v.Within k :=
  stays_call (.expressions es site) (fun _ le => Nat.lt_of_lt_of_le lt le) fun _ same => same

theorem stays_table {t : HashTable Value} (pairs : List (Expr × Expr)) (lt : site.scope < n) (h : t.Within n) :
    Stays (some site.scope) n (table t pairs site) fun k t => t.Within k :=
  stays_call (.table t pairs site) (fun _ le => ⟨Nat.lt_of_lt_of_le lt le, h.mono le⟩) fun _ same => same

theorem stays_statement (st : Statement) (lt : site.scope < n) :
    Stays (some site.scope) n (statement st site) fun k v => ∀ w ∈ v, w.Within k :=
  stays_call (.statement st site) (fun _ le => Nat.lt_of_lt_of_le lt le) fun _ same => same

theorem stays_statements (ss : List Statement) (lt : site.scope < n) :
    Stays (some site.scope) n (statements ss site) fun k v => ∀ w ∈ v, w.Within k :=
  stays_call (.statements ss site) (fun _ le => Nat.lt_of_lt_of_le lt le) fun _ same => same

theorem stays_block (last : Option Value) (ss : List Statement) (lt : site.scope < n)
    (before : ∀ w ∈ last, w.Within n) :
    Stays (some site.scope) n (block site last ss) fun k v => ∀ w ∈ v, w.Within k := by
  induction ss generalizing n last with
  | nil => exact stays_pure fun _ le w mem => (before w mem).mono le
  | cons st ss ih =>
    exact stays_bind (stays_statement st lt) fun _ v le within => ih v (Nat.lt_of_lt_of_le lt le) within

theorem stays_name {own : Option ScopeId} (id : String) :
    Stays own n (name id site) fun k v => v.Within k := by
  unfold name
  refine stays_get fun s sound _ => ?_
  split
  · next v found => exact stays_pure fun _ le => (sound.lookup? found).mono le
  · split
    · exact stays_pure fun _ _ => Value.within_builtin
    · exact stays_raise

theorem stays_hashKey {own : Option ScopeId} (key : Value) : Stays own n (hashKey key) fun _ _ => True := by
  unfold hashKey
  split
  · exact stays_pure fun _ _ => trivial
  · exact stays_raise

theorem stays_index {own : Option ScopeId} {base key : Value} (within : base.Within n) :
    Stays own n (index base key) fun k v => v.Within k := by
  unfold index
  split
  · next id vs i =>
    refine stays_pure fun _ le => Value.Within.mono ?_ le
    split
    · exact Value.within_null
    · refine (Value.hereditary_within n).getD fun w mem => ?_
      exact Value.within_array.1 within w (List.mem_of_getElem? mem)
  · next id t =>
    refine stays_bind (stays_hashKey _) fun _ place le _ => stays_pure fun _ le' => ?_
    cases found : t.find? place with
    | none => exact Value.within_null
    | some p =>
      have table : t.Within n := Value.within_hash.1 within
      exact (table.find? found).mono (Nat.le_trans le le')
  · exact stays_raise

theorem stays_branch (b : Option Block) (lt : site.scope < n) :
    Stays (some site.scope) n (branch b site) fun k v => v.Within k := by
  unfold branch
  split
  · next b =>
    refine stays_bind (stays_statements b.statements lt) fun k v _ within => stays_pure fun _ le => ?_
    exact ((Value.hereditary_within k).getD within).mono le
  · exact stays_pure fun _ _ => Value.within_null

theorem endWithin_callOutcome {r : Except Signal (Option Value)} (h : EndWithin (fun k v => ∀ w ∈ v, w.Within k) n r) :
    EndWithin (fun k v => v.Within k) n (callOutcome r) := by
  unfold callOutcome
  split
  · exact (Value.hereditary_within n).getD h
  · exact h
  · trivial

/-- What is done at the end of a call leaves alone the scopes that were there when it began. -/
theorem frame_releaseScope (release : Release) (outcome : Except Signal Value) {scope : ScopeId} {s t : Store}
    (frame : s.Frame none t) (sound : t.Sound) (young : s.size ≤ scope) :
    s.Frame none (releaseScope release scope outcome t) ∧ (releaseScope release scope outcome t).Sound ∧
      (releaseScope release scope outcome t).size = t.size := by
  unfold releaseScope
  split
  · exact ⟨frame, sound, rfl⟩
  · split
    · exact ⟨frame, sound, rfl⟩
    · exact ⟨frame.clear young, sound.clear, t.size_clear scope⟩
  · exact ⟨frame.clear young, sound.clear, t.size_clear scope⟩

theorem sound_enter {s : State} {c : Closure} {arguments : List Value} (sound : s.store.Sound)
    (around : c.scope < s.store.size) (within : ∀ v ∈ arguments, v.Within s.store.size) :
    (s.enter c arguments).store.Sound := by
  refine sound.enter (fun id mem => ?_) fun name v bound => within v (mem_of_bindParameters bound)
  cases mem
  exact around

/-- No scope that was there before a call is the scope of the call. -/
theorem frame_of_body {s t : State} {c : Closure} {arguments : List Value} (around : c.scope < s.store.size)
    (frame : (s.enter c arguments).store.Frame (some s.store.size) t.store) : s.store.Frame none t.store :=
  (Store.Frame.enter around).trans frame fun id old same => by
    cases same
    exact absurd old (Nat.lt_irrefl _)

/-- A call opens a scope of its own, which is all that its body may write, and clears no other. -/
theorem stays_enterClosure {release : Release} {c : Closure} {arguments : List Value} (captured : c.scope < n)
    (within : ∀ v ∈ arguments, v.Within n) :
    Stays none n (enterClosure release c arguments) fun k v => v.Within k := by
  by_cases count : c.function.parameters.length = arguments.length
  · intro s sound le
    have around : c.scope < s.store.size := Nat.lt_of_lt_of_le captured le
    have soundEntered := sound_enter sound around fun v mem => (within v mem).mono le
    have inside : s.store.size < (s.enter c arguments).store.size :=
      Nat.lt_of_lt_of_eq (Nat.lt_succ_self _) (s.store.size_enter _ _).symm
    rw [enterClosure_eq release count]
    refine ⟨⟨soundEntered, inside⟩, fun _ r t met => ?_⟩
    obtain ⟨frame, soundBody, ends⟩ := met
    have all := frame_of_body around frame
    obtain ⟨released, soundReleased, size⟩ := frame_releaseScope release (callOutcome r) all soundBody (Nat.le_refl _)
    have outcome := endWithin_callOutcome ends
    rw [← size] at outcome
    exact ⟨released, soundReleased, outcome⟩
  · rw [enterClosure_eq_raise release count]
    exact stays_raise

theorem stays_enterBuiltin {b : Builtin} {arguments : List Value} (within : ∀ v ∈ arguments, v.Within n) :
    Stays none n (enterBuiltin b arguments) fun k v => v.Within k := by
  unfold enterBuiltin
  have printed : Stays none n (Routine.modify fun s : State => { s with printer := b.print arguments s.printer })
      fun _ _ => True := fun s sound _ => ⟨.refl none s.store, sound, trivial⟩
  refine stays_bind printed fun k _ le _ => stays_bind stays_fresh fun k' identity le' _ => ?_
  have result : Stays none k' (ofResult (b.result identity arguments)) fun k v => v.Within k := by
    refine stays_ofResult fun v made k'' le'' => ?_
    refine ((Value.hereditary_within n).builtin within made).mono ?_
    exact Nat.le_trans le (Nat.le_trans le' le'')
  refine stays_bind result fun k v _ within => ?_
  split
  · exact stays_stop fun _ _ => trivial
  · exact stays_pure fun _ le => within.mono le

theorem stays_produceExpression (release : Release) (e : Expr) (lt : site.scope < n) :
    Stays (some site.scope) n (perform release (.expression e site)) fun k v => v.Within k := by
  cases e with
  | name id => exact stays_name id.name
  | int | bool => exact stays_pure fun _ _ => by simp
  | str s _ => exact stays_bind stays_fresh fun _ _ _ _ => stays_pure fun _ _ => Value.within_str
  | unary op e _ =>
    refine stays_bind (stays_expression e lt) fun _ v _ _ => ?_
    exact stays_ofResult fun w made k _ => (Value.hereditary_within k).unary made
  | binary op l r _ =>
    refine stays_bind (stays_expression l lt) fun k left le _ => ?_
    refine stays_bind (stays_expression r (Nat.lt_of_lt_of_le lt le)) fun k right _ _ => ?_
    refine stays_bind stays_fresh fun _ identity _ _ => ?_
    exact stays_ofResult fun w made k _ => (Value.hereditary_within k).binary made
  | cond c consequence alternative _ =>
    refine stays_bind (stays_expression c lt) fun k v le _ => ?_
    exact stays_branch _ (Nat.lt_of_lt_of_le lt le)
  | function parameters body span =>
    refine stays_bind (stays_modifyStore fun s sound _ => ?_) fun k _ le _ => stays_pure fun k' le' => ?_
    · exact ⟨.capture s site.scope, sound.capture⟩
    · exact Value.within_function.2 (Nat.lt_of_lt_of_le lt (Nat.le_trans le le'))
  | call f arguments _ =>
    refine stays_bind (stays_expression f lt) fun k callee le withinCallee => ?_
    refine stays_bind (stays_expressions arguments (Nat.lt_of_lt_of_le lt le)) fun k' vs le' withinArguments => ?_
    refine stays_call (.call callee vs) (fun k'' le'' => ?_) nofun
    exact ⟨withinCallee.mono (Nat.le_trans le' le''), fun v mem => (withinArguments v mem).mono le''⟩
  | array es _ =>
    refine stays_bind (stays_expressions es lt) fun k vs _ within => stays_bind stays_fresh fun k' identity le _ => ?_
    exact stays_pure fun _ le' => Value.within_array.2 fun v mem => (within v mem).mono (Nat.le_trans le le')
  | index b i _ =>
    refine stays_bind (stays_expression b lt) fun k base le within => ?_
    refine stays_bind (stays_expression i (Nat.lt_of_lt_of_le lt le)) fun k' key le' _ => ?_
    exact stays_index (within.mono le')
  | hash pairs _ =>
    refine stays_bind (stays_table pairs lt (HashTable.within_empty n)) fun k t _ within => ?_
    refine stays_bind stays_fresh fun k' identity le _ => stays_pure fun _ le' => ?_
    exact Value.within_hash.2 (within.mono (Nat.le_trans le le'))

/-- What is done for a goal stays within the scope of the goal and scopes that it opens. -/
theorem stays_perform (release : Release) (goal : Goal) (inputs : goal.Within n) :
    Stays goal.own? n (perform release goal) goal.ResultWithin := by
  cases goal with
  | expression e site => exact stays_produceExpression release e inputs
  | expressions es site =>
    cases es with
    | nil => exact stays_pure fun _ _ _ mem => nomatch mem
    | cons e es =>
      refine stays_bind (stays_expression e inputs) fun k v le withinFirst => ?_
      refine stays_bind (stays_expressions es (Nat.lt_of_lt_of_le inputs le)) fun k' vs le' withinOthers => ?_
      refine stays_pure fun _ le'' => List.forall_mem_cons.2 ⟨?_, fun w mem => (withinOthers w mem).mono le''⟩
      exact withinFirst.mono (Nat.le_trans le' le'')
  | table t pairs site =>
    obtain ⟨lt, withinTable⟩ := inputs
    cases pairs with
    | nil => exact stays_pure fun _ le => withinTable.mono le
    | cons p pairs =>
      refine stays_bind (stays_expression p.1 lt) fun k key le _ => ?_
      refine stays_bind (stays_hashKey key) fun k' h le' _ => ?_
      have lt' := Nat.lt_of_lt_of_le lt (Nat.le_trans le le')
      refine stays_bind (stays_expression p.2 lt') fun k'' v le'' withinValue => ?_
      refine stays_table pairs (Nat.lt_of_lt_of_le lt' le'') (HashTable.Within.insert ?_ withinValue)
      exact withinTable.mono (Nat.le_trans (Nat.le_trans le le') le'')
  | statement st site =>
    cases st with
    | bind id e _ =>
      refine stays_bind (stays_expression e inputs) fun k v le withinValue => ?_
      refine stays_bind (stays_modifyStore fun s sound le' => ?_) fun _ _ _ _ => ?_
      · exact ⟨.bind s site.scope id.name v, sound.bind (withinValue.mono le')⟩
      · exact stays_pure fun _ _ _ mem => nomatch mem
    | ret value _ =>
      cases value with
      | none => exact stays_bind stays_fresh fun _ _ _ _ => stays_stop fun _ _ => Value.within_null
      | some e =>
        refine stays_bind (stays_expression e inputs) fun k v le withinValue => ?_
        refine stays_bind stays_fresh fun k' _ le' _ => stays_stop fun _ le'' => ?_
        exact withinValue.mono (Nat.le_trans le' le'')
    | expr e =>
      refine stays_bind (stays_expression e inputs) fun k v le withinValue => stays_pure fun _ le' w mem => ?_
      cases mem
      exact withinValue.mono le'
  | statements ss site => exact stays_block none ss inputs fun _ mem => nomatch mem
  | call callee arguments =>
    obtain ⟨withinCallee, withinArguments⟩ := inputs
    cases callee with
    | function c => exact stays_enterClosure (Value.within_function.1 withinCallee) withinArguments
    | builtin b => exact stays_enterBuiltin withinArguments
    | _ => exact stays_raise

end Productions

end Evaluator

end Monkey
