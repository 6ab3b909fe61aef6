import Monkey.Proofs.InStep
import Monkey.Proofs.ScopeEvaluation
import Monkey.Store.Beside

namespace Monkey

open Evaluator

namespace Store

variable {s t : Store} {first n : ScopeId}

/-- What was there before a call holds nothing that the call has opened. -/
theorem Frame.confined (frame : Frame none s t) (sound : s.Sound) : t.Confined s.size := by
  intro id next old link
  have same := frame.same old nofun
  have before : s.Link id next := by
    rcases link with around | ⟨name, v, bound, inside⟩
    · rw [outer?, same] at around
      exact .inl around
    · rw [bound?, same] at bound
      exact .inr ⟨name, v, bound, inside⟩
  exact sound.link_lt before

theorem Usable.live_of_link {id next : ScopeId} (h : s.Usable t id) (beside : Beside first s t)
    (link : s.Link id next) : s.Live first t next :=
  ⟨h.of_link beside.sound link, fun young => beside.noted link young⟩

/-- What a name means in a usable scope, values may hold. -/
theorem Usable.over_lookup? {id : ScopeId} {name : String} {v : Value} (h : s.Usable t id)
    (beside : Beside first s t) (found : s.lookup? name id = some v) : v.Over (s.Live first t) := by
  fun_induction Store.lookup? s name id with
  | case1 id w bound =>
    cases found
    exact fun c inside => h.live_of_link beside (.inr ⟨name, v, bound, inside⟩)
  | case2 => cases found
  | case3 id unbound outer around lt ih => exact ih (h.of_link beside.sound (.inl around)) found
  | case4 => cases found

end Store

namespace Evaluator

variable {first : Nat} {s s' t t' : State}

/-- The states have printed the same and have made as many objects, and their stores stand side by side. -/
structure State.Beside (first : Nat) (s s' : State) : Prop where
  printer : s.printer = s'.printer
  objects : s.objects = s'.objects
  store : s.store.Beside first s'.store

/-- The scope is usable in both states. -/
abbrev State.Usable (s s' : State) (id : ScopeId) : Prop := s.store.Usable s'.store id

/-- The scope is one that values may hold in both states. -/
abbrev State.Live (first : Nat) (s s' : State) (id : ScopeId) : Prop := s.store.Live first s'.store id

def Signal.Over (Q : ScopeId → Prop) : Signal → Prop
  | .error .. => True
  | .ret _ v => v.Over Q

/-- A value as `value` says of scopes with the property, or a signal whose closures are over such scopes. -/
def EndOver {α : Type} (value : (ScopeId → Prop) → α → Prop) (Q : ScopeId → Prop) : Except Signal α → Prop
  | .ok a => value Q a
  | .error signal => signal.Over Q

/-- The closures handed to the goal are over scopes with the property. -/
def Goal.Over (Q : ScopeId → Prop) : Goal → Prop
  | .expression .. | .expressions .. | .statement .. | .statements .. => True
  | .table t _ _ => ∀ p ∈ t.entries, p.2.Over Q
  | .call callee arguments => callee.Over Q ∧ ∀ v ∈ arguments, v.Over Q

/-- The closures in what the goal is reached with are over scopes with the property. -/
def Goal.ResultOver : (goal : Goal) → (ScopeId → Prop) → goal.Result → Prop
  | .expression .., Q, v | .call .., Q, v => v.Over Q
  | .expressions .., Q, vs => ∀ v ∈ vs, v.Over Q
  | .table .., Q, t => ∀ p ∈ t.entries, p.2.Over Q
  | .statement .., Q, v | .statements .., Q, v => ∀ w ∈ v, w.Over Q

/-- From `s` and `s'` two runs have come to `t` and `t'`, side by side again. -/
structure Onward (first : Nat) (s s' t t' : State) : Prop where
  beside : t.Beside first t'
  keeps : s.store.Keeps s'.store t.store t'.store

theorem Onward.trans {u u' : State} (h : Onward first s s' t t') (h' : Onward first t t' u u') :
    Onward first s s' u u' :=
  ⟨h'.beside, h.keeps.trans h'.keeps⟩

/-- The runs have come to the same end, and values hold in it what they may. -/
def EndsBeside {α : Type} (first : Nat) (value : (ScopeId → Prop) → α → Prop) (s s' : State) :
    Except Signal α → State → Except Signal α → State → Prop :=
  CallTree.EndAlike (fun a t a' t' => a' = a ∧ Onward first s s' t t' ∧ value (t.Live first t') a)
    fun x t x' t' => x' = x ∧ Onward first s s' t t' ∧ x.Over (t.Live first t')

theorem endsBeside_iff {α : Type} {value : (ScopeId → Prop) → α → Prop} {r r' : Except Signal α} :
    EndsBeside first value s s' r t r' t' ↔
      r' = r ∧ Onward first s s' t t' ∧ EndOver value (t.Live first t') r := by
  cases r with
  | ok a =>
    cases r' with
    | ok a' => simp [EndsBeside, CallTree.EndAlike, EndOver]
    | error => simp [EndsBeside, CallTree.EndAlike]
  | error x =>
    cases r' with
    | ok => simp [EndsBeside, CallTree.EndAlike]
    | error x' => simp [EndsBeside, CallTree.EndAlike, EndOver]

/-- The same goal may be reached from both states: its scope is usable and what is handed to it may be held. -/
structure AllowedBeside (first : Nat) (goal : Goal) (s s' : State) : Prop where
  beside : s.Beside first s'
  own : ∀ id ∈ goal.own?, s.Usable s' id
  holds : goal.Over (s.Live first s')

/-- Both calls are of the same goal. -/
def CallsBeside (first : Nat) (goal : Goal) (s : State) (goal' : Goal) (s' : State) : Prop :=
  goal' = goal ∧ AllowedBeside first goal s s'

/-- The calls were of the same goal and have come to the same end, and each has left alone what it had to. -/
def CallsEndBeside (first : Nat) (goal : Goal) (s : State) (goal' : Goal) (s' : State) (r : Except Signal goal.Result)
    (t : State) (r' : Except Signal goal'.Result) (t' : State) : Prop :=
  (∃ same : goal' = goal, EndsBeside first goal.ResultOver s s' r t (same ▸ r') t') ∧ goal.Leaves s r t ∧
    goal'.Leaves s' r' t'

/-- The evaluation cannot tell states apart that stand side by side. Its scope `own` is usable, and what it may hold
to begin with is live: both runs call the same goals and come to the same end, if all goals do. -/
def Blind {α : Type} (first : Nat) (own : Option ScopeId) (Q : ScopeId → Prop) (m : Evaluator α)
    (value : (ScopeId → Prop) → α → Prop) : Prop :=
  ∀ s s' : State, s.Beside first s' → (∀ id ∈ own, s.Usable s' id) → (∀ c, Q c → s.Live first s' c) →
    (m s).InStep (CallsBeside first) (CallsEndBeside first) (m s') (EndsBeside first value s s')

section Rules

variable {α β : Type} {own : Option ScopeId} {Q : ScopeId → Prop} {value : (ScopeId → Prop) → β → Prop}

theorem blind_pure {b : β} (h : ∀ Q' : ScopeId → Prop, (∀ c, Q c → Q' c) → value Q' b) :
    Blind first own Q (pure b) value :=
  fun s s' beside _ held => ⟨rfl, ⟨beside, .refl s.store s'.store⟩, h _ held⟩

theorem blind_stop {signal : Signal} (h : ∀ Q' : ScopeId → Prop, (∀ c, Q c → Q' c) → signal.Over Q') :
    Blind first own Q (Routine.stop signal) value :=
  fun s s' beside _ held => ⟨rfl, ⟨beside, .refl s.store s'.store⟩, h _ held⟩

theorem endsBeside_trans {r r' : Except Signal β} {u u' : State} (h : Onward first s s' t t')
    (ends : EndsBeside first value t t' r u r' u') : EndsBeside first value s s' r u r' u' := by
  obtain ⟨same, onward, holds⟩ := endsBeside_iff.1 ends
  exact endsBeside_iff.2 ⟨same, h.trans onward, holds⟩

theorem blind_bind {m : Evaluator α} {f : α → Evaluator β} {mid : (ScopeId → Prop) → α → Prop}
    (h : Blind first own Q m mid)
    (next : ∀ (Q' : ScopeId → Prop) a, (∀ c, Q c → Q' c) → mid Q' a → Blind first own Q' (f a) value) :
    Blind first own Q (m >>= f) value := by
  intro s s' beside usable held
  refine CallTree.InStep.andThen (h s s' beside usable held) fun a t a' t' met => ?_
  obtain ⟨rfl, onward, made⟩ := met
  have still : ∀ c, Q c → t.Live first t' c := fun c mem => (held c mem).of_keeps onward.keeps
  have later := next _ a' still made t t' onward.beside (fun id mem => onward.keeps.usable (usable id mem)) fun _ => id
  exact later.mono (fun _ _ _ _ h => h) (fun _ _ _ _ _ _ _ _ h => h) fun _ _ _ _ ends => endsBeside_trans onward ends

/-- A goal may be called in the scope that is evaluated in, with what may be held. -/
theorem blind_call (goal : Goal) (h : ∀ Q' : ScopeId → Prop, (∀ c, Q c → Q' c) → goal.Over Q')
    (narrow : ∀ id ∈ goal.own?, id ∈ own) : Blind first own Q (Routine.call goal) goal.ResultOver := by
  intro s s' beside usable held
  refine ⟨⟨rfl, beside, fun id mem => usable id (narrow id mem), h _ held⟩, fun r t r' t' met => ?_⟩
  obtain ⟨⟨_, ends⟩, _⟩ := met
  exact ends

theorem blind_get {f : State → Evaluator β}
    (h : ∀ s s' : State, s.Beside first s' → (∀ id ∈ own, s.Usable s' id) →
      f s' = f s ∧ Blind first own (s.Live first s') (f s) value) :
    Blind first own Q (Routine.get >>= f) value := by
  intro s s' beside usable held
  obtain ⟨same, blind⟩ := h s s' beside usable
  change (f s s).InStep _ _ (f s' s') _
  rw [same]
  exact blind s s' beside usable fun _ => id

theorem blind_modifyStore {f : Store → Store}
    (h : ∀ s s' : State, s.Beside first s' → (∀ id ∈ own, s.Usable s' id) → (∀ c, Q c → s.Live first s' c) →
      (f s.store).Beside first (f s'.store) ∧ s.store.Keeps s'.store (f s.store) (f s'.store)) :
    Blind first own Q (modifyStore f) fun _ _ => True := by
  intro s s' beside usable held
  obtain ⟨store, keeps⟩ := h s s' beside usable held
  exact ⟨rfl, ⟨⟨beside.printer, beside.objects, store⟩, keeps⟩, trivial⟩

theorem blind_fresh : Blind first own Q fresh fun _ _ => True := by
  intro s s' beside _ _
  have more : s.objects + 1 = s'.objects + 1 := congrArg (· + 1) beside.objects
  exact ⟨beside.objects.symm, ⟨⟨beside.printer, more, beside.store⟩, .refl s.store s'.store⟩, trivial⟩

theorem blind_raise {e : RuntimeError} : Blind first own Q (raise e) value :=
  blind_bind blind_fresh fun _ _ _ _ => blind_stop fun _ _ => trivial

theorem blind_ofResult {r : Except RuntimeError β}
    (h : ∀ b, r = .ok b → ∀ Q' : ScopeId → Prop, (∀ c, Q c → Q' c) → value Q' b) :
    Blind first own Q (ofResult r) value := by
  cases r with
  | ok b => exact blind_pure (h b rfl)
  | error e => exact blind_raise

end Rules

section Productions

variable {Q : ScopeId → Prop} {site : Site}

theorem blind_expression (e : Expr) :
    Blind first (some site.scope) Q (expression e site) fun Q v => v.Over Q :=
  blind_call (.expression e site) (fun _ _ => trivial) fun _ mem => mem

theorem blind_expressions (es : List Expr) :
    Blind first (some site.scope) Q (expressions es site) fun Q vs => ∀ v ∈ vs, v.Over Q :=
  blind_call (.expressions es site) (fun _ _ => trivial) fun _ mem => mem

theorem blind_table {t : HashTable Value} (pairs : List (Expr × Expr)) (h : ∀ p ∈ t.entries, p.2.Over Q) :
    Blind first (some site.scope) Q (table t pairs site) fun Q t => ∀ p ∈ t.entries, p.2.Over Q :=
  blind_call (.table t pairs site) (fun _ le p mem => (h p mem).mono le) fun _ mem => mem

theorem blind_statement (st : Statement) :
    Blind first (some site.scope) Q (statement st site) fun Q v => ∀ w ∈ v, w.Over Q :=
  blind_call (.statement st site) (fun _ _ => trivial) fun _ mem => mem

theorem blind_statements (ss : List Statement) :
    Blind first (some site.scope) Q (statements ss site) fun Q v => ∀ w ∈ v, w.Over Q :=
  blind_call (.statements ss site) (fun _ _ => trivial) fun _ mem => mem

theorem blind_block (last : Option Value) (ss : List Statement) (before : ∀ w ∈ last, w.Over Q) :
    Blind first (some site.scope) Q (block site last ss) fun Q v => ∀ w ∈ v, w.Over Q := by
  induction ss generalizing Q last with
  | nil => exact blind_pure fun _ le w mem => (before w mem).mono le
  | cons st ss ih => exact blind_bind (blind_statement st) fun _ v _ holds => ih v holds

/-- In a usable scope a name means the same in both states. -/
theorem blind_name (id : String) : Blind first (some site.scope) Q (name id site) fun Q v => v.Over Q := by
  refine blind_get fun s s' beside usable => ?_
  have here : s.Usable s' site.scope := usable _ rfl
  have same := here.intact.lookup?_eq id
  rw [← same]
  refine ⟨rfl, ?_⟩
  split
  · next v found => exact blind_pure fun _ le => (here.over_lookup? beside.store found).mono le
  · split
    · refine blind_pure fun _ _ c mem => ?_
      cases mem
    · exact blind_raise

theorem blind_hashKey {own : Option ScopeId} (key : Value) : Blind first own Q (hashKey key) fun _ _ => True := by
  unfold hashKey
  split
  · exact blind_pure fun _ _ => trivial
  · exact blind_raise

theorem blind_index {own : Option ScopeId} {base key : Value} (holds : base.Over Q) :
    Blind first own Q (index base key) fun Q v => v.Over Q := by
  unfold index
  split
  · next id vs i =>
    refine blind_pure fun Q' le => Value.Over.mono ?_ le
    have hereditary := Value.hereditary_over Q
    split
    · exact hereditary.null
    · have elements := (hereditary.array id vs).1 holds
      exact hereditary.getD fun w mem => elements w (List.mem_of_getElem? mem)
  · next id t =>
    refine blind_bind (blind_hashKey _) fun Q' place le _ => blind_pure fun Q'' le' => ?_
    have table : ∀ p ∈ t.entries, p.2.Over Q'' := by
      intro p mem c inside
      exact le' c (le c (holds c (Value.mem_scopes_hash.2 ⟨p, mem, inside⟩)))
    cases found : t.find? place with
    | none => exact (Value.hereditary_over Q'').null
    | some p => exact HashTable.of_find? table found
  · exact blind_raise

theorem blind_branch (b : Option Block) :
    Blind first (some site.scope) Q (branch b site) fun Q v => v.Over Q := by
  unfold branch
  split
  · next b =>
    refine blind_bind (blind_statements b.statements) fun Q' v _ holds => blind_pure fun _ le => ?_
    exact ((Value.hereditary_over Q').getD holds).mono le
  · exact blind_pure fun Q' _ => (Value.hereditary_over Q').null

theorem blind_enterBuiltin {b : Builtin} {arguments : List Value} (holds : ∀ v ∈ arguments, v.Over Q) :
    Blind first none Q (enterBuiltin b arguments) fun Q v => v.Over Q := by
  unfold enterBuiltin
  have printed : Blind first none Q (Routine.modify fun s : State => { s with printer := b.print arguments s.printer })
      fun _ _ => True := by
    intro s s' beside _ _
    have printer := congrArg (b.print arguments) beside.printer
    exact ⟨rfl, ⟨⟨printer, beside.objects, beside.store⟩, .refl s.store s'.store⟩, trivial⟩
  refine blind_bind printed fun Q₁ _ le₁ _ => blind_bind blind_fresh fun Q₂ identity le₂ _ => ?_
  have result : Blind first none Q₂ (ofResult (b.result identity arguments)) fun Q v => v.Over Q := by
    refine blind_ofResult fun v made Q₃ le₃ => ?_
    have each : ∀ w ∈ arguments, w.Over Q₃ := fun w mem c inside => le₃ c (le₂ c (le₁ c (holds w mem c inside)))
    exact (Value.hereditary_over Q₃).builtin each made
  refine blind_bind result fun Q₃ v _ holds => ?_
  split
  · exact blind_stop fun _ _ => trivial
  · exact blind_pure fun _ le => holds.mono le

theorem blind_produceExpression (release : Release) (e : Expr) :
    Blind first (some site.scope) Q (perform release (.expression e site)) fun Q v => v.Over Q := by
  cases e with
  | name id => exact blind_name id.name
  | int n _ => exact blind_pure fun Q' _ => (Value.hereditary_over Q').int n
  | bool b _ => exact blind_pure fun Q' _ => (Value.hereditary_over Q').bool b
  | str text _ =>
    refine blind_bind blind_fresh fun _ identity _ _ => ?_
    exact blind_pure fun Q' _ => (Value.hereditary_over Q').str identity text
  | unary op e _ =>
    refine blind_bind (blind_expression e) fun _ v _ _ => ?_
    exact blind_ofResult fun w made Q' _ => (Value.hereditary_over Q').unary made
  | binary op l r _ =>
    refine blind_bind (blind_expression l) fun _ left _ _ => blind_bind (blind_expression r) fun _ right _ _ => ?_
    refine blind_bind blind_fresh fun _ identity _ _ => ?_
    exact blind_ofResult fun w made Q' _ => (Value.hereditary_over Q').binary made
  | cond c consequence alternative _ =>
    exact blind_bind (blind_expression c) fun _ v _ _ => blind_branch _
  | function parameters body place =>
    -- Only now may values hold the scope.
    have captured : Blind first (some site.scope) Q (modifyStore (·.capture site.scope)) fun Q _ => Q site.scope := by
      intro s s' beside usable _
      obtain ⟨store, keeps, live⟩ := beside.store.capture site.scope
      exact ⟨rfl, ⟨⟨beside.printer, beside.objects, store⟩, keeps⟩, live (usable _ rfl)⟩
    refine blind_bind captured fun Q' _ _ here => blind_pure fun Q'' le c mem => ?_
    rw [Value.mem_scopes_function] at mem
    subst mem
    exact le _ here
  | call f arguments _ =>
    refine blind_bind (blind_expression f) fun Q₁ callee _ overCallee => ?_
    refine blind_bind (blind_expressions arguments) fun Q₂ vs le₂ overArguments => ?_
    refine blind_call (.call callee vs) (fun Q₃ le₃ => ⟨?_, fun v mem => (overArguments v mem).mono le₃⟩) nofun
    exact (overCallee.mono le₂).mono le₃
  | array es _ =>
    refine blind_bind (blind_expressions es) fun Q₁ vs _ holds => blind_bind blind_fresh fun Q₂ identity le₂ _ => ?_
    refine blind_pure fun Q₃ le₃ => ((Value.hereditary_over Q₃).array identity vs).2 fun v mem => ?_
    exact ((holds v mem).mono le₂).mono le₃
  | index b i _ =>
    refine blind_bind (blind_expression b) fun _ base _ holds => blind_bind (blind_expression i) fun _ key le _ => ?_
    exact blind_index (holds.mono le)
  | hash pairs _ =>
    have empty : ∀ p ∈ (HashTable.entries ({} : HashTable Value)), p.2.Over Q := by simp
    refine blind_bind (blind_table pairs empty) fun Q₁ t _ holds => blind_bind blind_fresh fun Q₂ identity le₂ _ => ?_
    refine blind_pure fun Q₃ le₃ c mem => ?_
    obtain ⟨p, entry, inside⟩ := Value.mem_scopes_hash.1 mem
    exact le₃ c (le₂ c (holds p entry c inside))

/-- What is done for a goal other than the call of a closure. -/
theorem blind_perform (release : Release) (goal : Goal) (open? : ∀ c vs, goal ≠ .call (.function c) vs)
    (holds : goal.Over Q) : Blind first goal.own? Q (perform release goal) goal.ResultOver := by
  cases goal with
  | expression e site => exact blind_produceExpression release e
  | expressions es site =>
    cases es with
    | nil => exact blind_pure fun _ _ _ mem => nomatch mem
    | cons e es =>
      refine blind_bind (blind_expression e) fun Q₁ v _ overFirst => ?_
      refine blind_bind (blind_expressions es) fun Q₂ vs le₂ overOthers => blind_pure fun Q₃ le₃ => ?_
      exact List.forall_mem_cons.2 ⟨(overFirst.mono le₂).mono le₃, fun w mem => (overOthers w mem).mono le₃⟩
  | table t pairs site =>
    cases pairs with
    | nil => exact blind_pure fun _ le p mem => (holds p mem).mono le
    | cons p pairs =>
      refine blind_bind (blind_expression p.1) fun Q₁ key le₁ _ => ?_
      refine blind_bind (blind_hashKey key) fun Q₂ h le₂ _ => ?_
      refine blind_bind (blind_expression p.2) fun Q₃ v le₃ overValue => ?_
      have old : ∀ q ∈ t.entries, q.2.Over Q₃ := fun q mem c inside => le₃ c (le₂ c (le₁ c (holds q mem c inside)))
      exact blind_table pairs (HashTable.forall_entries_insert old overValue)
  | statement st site =>
    cases st with
    | bind id e _ =>
      refine blind_bind (blind_expression e) fun Q₁ v _ overValue => ?_
      refine blind_bind (blind_modifyStore fun s s' beside _ held => ?_) fun _ _ _ _ => ?_
      · exact beside.store.bind site.scope id.name fun c inside => held c (overValue c inside)
      · exact blind_pure fun _ _ _ mem => nomatch mem
    | ret value _ =>
      cases value with
      | none =>
        exact blind_bind blind_fresh fun _ _ _ _ => blind_stop fun Q' _ => (Value.hereditary_over Q').null
      | some e =>
        refine blind_bind (blind_expression e) fun Q₁ v _ overValue => blind_bind blind_fresh fun Q₂ _ le₂ _ => ?_
        exact blind_stop fun Q₃ le₃ => (overValue.mono le₂).mono le₃
    | expr e =>
      refine blind_bind (blind_expression e) fun Q₁ v _ overValue => blind_pure fun _ le w mem => ?_
      cases mem
      exact overValue.mono le
  | statements ss site => exact blind_block none ss fun _ mem => nomatch mem
  | call callee arguments =>
    obtain ⟨overCallee, overArguments⟩ := holds
    cases callee with
    | function c => exact absurd rfl (open? c arguments)
    | builtin b => exact blind_enterBuiltin overArguments
    | _ => exact blind_raise

end Productions

section Calls

variable {n : ScopeId} {outcome : Except Signal Value} {Q : ScopeId → Prop}

/-- An error that comes out of a call holds no closure. -/
theorem outcomeScopes_error {r : Except Signal (Option Value)} {x : Signal} (h : callOutcome r = .error x) :
    outcomeScopes (.error x) = [] := by
  unfold callOutcome at h
  split at h <;> cases h
  rfl

theorem endOver_iff : EndOver (fun Q (v : Value) => v.Over Q) Q outcome ↔ ∀ c ∈ outcomeScopes outcome, Q c := by
  rcases outcome with (⟨id, message⟩ | ⟨id, v⟩) | v
  · simp [EndOver, Signal.Over, outcomeScopes]
  · exact Iff.rfl
  · exact Iff.rfl

theorem endOver_callOutcome {r : Except Signal (Option Value)} (h : EndOver (fun Q v => ∀ w ∈ v, Value.Over Q w) Q r) :
    EndOver (fun Q (v : Value) => v.Over Q) Q (callOutcome r) := by
  unfold callOutcome
  split
  · exact (Value.hereditary_over Q).getD h
  · exact h
  · trivial

/-- The scope of a call is cleared if the outcome does not reach it. -/
theorem leave_of_apart (sound : t.store.Sound) (confined : t.store.Confined n)
    (within : EndWithin (fun k v => v.Within k) t.store.size outcome)
    (apart : ∀ c ∈ outcomeScopes outcome, ¬ t.store.Reachable c n) :
    t.leave .unreached n outcome = { t with store := t.store.clear n } := by
  cases outcome with
  | error x => rfl
  | ok v =>
    have missed : t.store.reaches v n = false := by
      rw [Bool.eq_false_iff]
      intro found
      obtain ⟨c, mem, reachable⟩ := (confined.reaches_iff sound within).1 found
      exact apart c mem reachable
    unfold State.leave releaseScope
    dsimp only
    rw [missed, Bool.and_false]
    rfl

/-- The scope of a call is kept if the value reaches it. -/
theorem leave_of_reached {v : Value} (sound : t.store.Sound) (confined : t.store.Confined n)
    (noted : t.store.Noted first) (young : first ≤ n) (within : v.Within t.store.size)
    (held : ∀ c ∈ v.scopes, first ≤ c → t.store.isCaptured c = true)
    (reached : ∃ c ∈ v.scopes, t.store.Reachable c n) : t.leave .unreached n (.ok v) = t := by
  have found := (confined.reaches_iff sound within).2 reached
  have captured : (t.store.scopes.getD n {}).captured = true := by
    obtain ⟨c, mem, reachable⟩ := reached
    by_contra not
    -- Nothing but the value itself could hold a scope that is not noted, and the value may not.
    have same := noted.eq_of_reachable young (Bool.eq_false_iff.2 not) reachable
    subst same
    exact not (held c mem young)
  unfold State.leave releaseScope
  dsimp only
  rw [captured, found]
  rfl

/-- At the end of a call its scope may be cleared in the one state, and nobody can tell. -/
theorem endsBeside_leave {r : Except Signal (Option Value)} (sound : s.store.Sound) (onward : Onward first s s' t t')
    (opened : first ≤ s.store.size) (frame : s.store.Frame none t.store)
    (within : EndWithin (fun k v => v.Within k) t.store.size (callOutcome r))
    (holds : EndOver (fun Q v => v.Over Q) (t.Live first t') (callOutcome r)) :
    EndsBeside first (fun Q v => v.Over Q) s s' (callOutcome r) (t.leave .unreached s.store.size (callOutcome r))
      (callOutcome r) (t'.leave .never s.store.size (callOutcome r)) := by
  have confined : t.store.Confined s.store.size := frame.confined sound
  have soundEnd : t.store.Sound := onward.beside.store.sound
  refine endsBeside_iff.2 ⟨rfl, ?_⟩
  by_cases reached : ∃ c ∈ outcomeScopes (callOutcome r), t.store.Reachable c s.store.size
  · have kept : t.leave .unreached s.store.size (callOutcome r) = t := by
      cases ends : callOutcome r with
      | error x =>
        rw [ends, outcomeScopes_error ends] at reached
        simp at reached
      | ok v =>
        rw [ends] at within holds reached
        exact leave_of_reached soundEnd confined onward.beside.store.noted opened within
          (fun c mem => (holds c mem).captured) reached
    rw [kept]
    exact ⟨onward, holds⟩
  · have apart : ∀ c ∈ outcomeScopes (callOutcome r), ¬ t.store.Reachable c s.store.size :=
      fun c mem reachable => reached ⟨c, mem, reachable⟩
    rw [leave_of_apart soundEnd confined within apart]
    obtain ⟨store, usable, captured⟩ := onward.beside.store.clear s.store.size
    refine ⟨⟨⟨onward.beside.printer, onward.beside.objects, store⟩, fun old => ?_, ?_⟩, endOver_iff.2 fun c mem => ?_⟩
    · exact usable (onward.keeps.usable old) (confined.not_reachable old.lt)
    · exact fun noted => captured (onward.keeps.captured noted)
    · have live := endOver_iff.1 holds c mem
      exact ⟨usable live.toUsable (apart c mem), fun young => captured (live.captured young)⟩

/-- The body of a closure runs in a new scope, which is usable whether that of an ended call is cleared or not. -/
theorem inStep_enterClosure {c : Closure} {arguments : List Value}
    (allowed : AllowedBeside first (.call (.function c) arguments) s s') :
    (enterClosure .unreached c arguments s).InStep (CallsBeside first) (CallsEndBeside first)
      (enterClosure .never c arguments s') (EndsBeside first (fun Q v => v.Over Q) s s') := by
  obtain ⟨beside, _, overCallee, overArguments⟩ := allowed
  have around : s.Live first s' c.scope := overCallee _ (Value.mem_scopes_function.2 rfl)
  by_cases count : c.function.parameters.length = arguments.length
  · rw [enterClosure_eq .unreached count, enterClosure_eq .never count, ← beside.store.size]
    obtain ⟨store, keeps, here⟩ :=
      beside.store.enter around fun _ v bound => overArguments v (mem_of_bindParameters bound)
    have entered : (s.enter c arguments).Beside first (s'.enter c arguments) :=
      ⟨beside.printer, beside.objects, store⟩
    refine ⟨⟨rfl, entered, fun id mem => ?_, trivial⟩, fun r t r' t' met => ?_⟩
    · cases mem
      exact here
    · obtain ⟨⟨_, ends⟩, ⟨frame, soundEnd, within⟩, _⟩ := met
      obtain ⟨same, onward, holds⟩ := endsBeside_iff.1 ends
      change r' = r at same
      subst same
      have all : Onward first s s' t t' := ⟨onward.beside, keeps.trans onward.keeps⟩
      exact endsBeside_leave beside.store.sound all beside.store.opened (frame_of_body around.lt frame)
        (endWithin_callOutcome within) (endOver_callOutcome holds)
  · rw [enterClosure_eq_raise .unreached count, enterClosure_eq_raise .never count]
    have blind : Blind first none (fun _ => False)
        (raise (.argumentCount c.function.parameters.length arguments.length) : Evaluator Value)
        (Goal.ResultOver (.call (.function c) arguments)) := blind_raise
    exact blind s s' beside nofun nofun

/-- What is done for a goal is the same from states that stand side by side, whether scopes are cleared or not. -/
theorem inStep_perform {goal : Goal} (allowed : AllowedBeside first goal s s') :
    (perform .unreached goal s).InStep (CallsBeside first) (CallsEndBeside first) (perform .never goal s')
      (EndsBeside first goal.ResultOver s s') := by
  by_cases closure : ∃ c arguments, goal = .call (.function c) arguments
  · obtain ⟨c, arguments, rfl⟩ := closure
    exact inStep_enterClosure allowed
  · have other : ∀ c arguments, goal ≠ .call (.function c) arguments :=
      fun c arguments same => closure ⟨c, arguments, same⟩
    -- Only a call of a closure looks at what is to become of its scope.
    have same : perform .never goal = perform .unreached goal := by
      rcases goal with _ | _ | _ | _ | _ | ⟨callee, arguments⟩
      case call =>
        cases callee with
        | function c => exact absurd rfl (other c arguments)
        | _ => rfl
      all_goals rfl
    rw [same]
    exact blind_perform .unreached goal other allowed.holds s s' allowed.beside allowed.own fun _ => id

end Calls

/-- Both calls are of the same goal, which both states have all scopes for. -/
def PairedCalls (first : Nat) (goal : Goal) (s : State) (goal' : Goal) (s' : State) : Prop :=
  CallsBeside first goal s goal' s' ∧ (s.store.Sound ∧ goal.Within s.store.size) ∧
    s'.store.Sound ∧ goal'.Within s'.store.size

theorem PairedCalls.inStep {goal goal' : Goal} (h : PairedCalls first goal s goal' s') :
    (perform .unreached goal s).InStep (PairedCalls first) (CallsEndBeside first) (perform .never goal' s')
      (CallsEndBeside first goal s goal' s') := by
  obtain ⟨⟨rfl, allowed⟩, left, right⟩ := h
  have staysLeft := stays_perform .unreached goal' left.2 s left.1 (Nat.le_refl _)
  have staysRight := stays_perform .never goal' right.2 s' right.1 (Nat.le_refl _)
  have both := (inStep_perform allowed).ensures staysLeft staysRight
  refine both.mono (fun _ _ _ _ h => h) (fun _ _ _ _ _ _ _ _ h => h) ?_
  rintro r t r' t' ⟨ends, leaves⟩
  exact ⟨⟨rfl, ends⟩, leaves⟩

end Evaluator

end Monkey
