import Monkey.Builtin
import Monkey.Operator
import Monkey.Related
import Monkey.Store.Sound

namespace Monkey

/-- Old numbers correspond to themselves, and those given later in the order of giving. -/
def Corresponds (old : Nat → Prop) (left right a b : Nat) : Prop :=
  (old a ∧ a < left ∧ a < right ∧ a = b) ∨ ∃ k, a = left + k ∧ b = right + k

namespace Corresponds

variable {old : Nat → Prop} {left right a b a' b' : Nat}

theorem eq_iff (h : Corresponds old left right a b) (h' : Corresponds old left right a' b') : a = a' ↔ b = b' := by
  rcases h with ⟨_, _, _, rfl⟩ | ⟨k, rfl, rfl⟩ <;> rcases h' with ⟨_, _, _, rfl⟩ | ⟨k', rfl, rfl⟩ <;> omega

theorem lt_iff (h : Corresponds old left right a b) (h' : Corresponds old left right a' b') : a < a' ↔ b < b' := by
  rcases h with ⟨_, _, _, rfl⟩ | ⟨k, rfl, rfl⟩ <;> rcases h' with ⟨_, _, _, rfl⟩ | ⟨k', rfl, rfl⟩ <;> omega

theorem fresh (k : Nat) : Corresponds old left right (left + k) (right + k) := .inr ⟨k, rfl, rfl⟩

end Corresponds

/-- Which scopes and objects of one run are which of another. By `Corresponds.eq_iff` each is one at most. -/
structure Renaming where
  /-- The scopes that both runs begin with. -/
  shared : ScopeId → Prop
  /-- How many scopes there are when the one run begins, and when the other does. -/
  left : Nat
  right : Nat
  leftObjects : Nat
  rightObjects : Nat

namespace Value

/-- Rows of values that look the same one by one look the same. -/
theorem inspectElementsRest_congr {vs ws : List Value} (h : List.Forall₂ (fun v w => v.inspect = w.inspect) vs ws) :
    inspectElementsRest vs = inspectElementsRest ws := by
  induction h with
  | nil => rfl
  | cons first _ ih => rw [inspectElementsRest, inspectElementsRest, first, ih]

theorem inspectElements_congr {vs ws : List Value} (h : List.Forall₂ (fun v w => v.inspect = w.inspect) vs ws) :
    inspectElements vs = inspectElements ws := by
  cases h with
  | nil => rfl
  | cons first rest => rw [inspectElements, inspectElements, first, inspectElementsRest_congr rest]

theorem inspectEntriesRest_congr {ps qs : List (Value × Value)}
    (h : List.Forall₂ (fun p q => p.1.inspect = q.1.inspect ∧ p.2.inspect = q.2.inspect) ps qs) :
    inspectEntriesRest ps = inspectEntriesRest qs := by
  induction h with
  | nil => rfl
  | cons first _ ih => rw [inspectEntriesRest, inspectEntriesRest, first.1, first.2, ih]

theorem inspectEntries_congr {ps qs : List (Value × Value)}
    (h : List.Forall₂ (fun p q => p.1.inspect = q.1.inspect ∧ p.2.inspect = q.2.inspect) ps qs) :
    inspectEntries ps = inspectEntries qs := by
  cases h with
  | nil => rfl
  | cons first rest => rw [inspectEntries, inspectEntries, first.1, first.2, inspectEntriesRest_congr rest]

end Value

/-- Entries of hashes: the keys can be keys, and they and the values are related. -/
inductive EntryRelated (R : Value → Value → Prop) : Value × Value → Value × Value → Prop
  | mk {k l v w : Value} : k.hashKey?.isSome → R k l → R v w → EntryRelated R (k, v) (l, w)

theorem EntryRelated.imp {R S : Value → Value → Prop} (imp : ∀ v w, R v w → S v w) {p q : Value × Value}
    (h : EntryRelated R p q) : EntryRelated S p q := by
  cases h with
  | mk hashable key value => exact .mk hashable (imp _ _ key) (imp _ _ value)

/-- The same error, or values that are related. -/
inductive ResultsRelated {α β : Type} (R : α → β → Prop) : Except RuntimeError α → Except RuntimeError β → Prop
  | ok {a : α} {b : β} : R a b → ResultsRelated R (.ok a) (.ok b)
  | error (e : RuntimeError) : ResultsRelated R (.error e) (.error e)

namespace Renaming

def CarriesScope (ρ : Renaming) (a b : ScopeId) : Prop := Corresponds ρ.shared ρ.left ρ.right a b

/-- The object is one of the first `n` of the one run. -/
def CarriesObject (ρ : Renaming) (n : Nat) (i j : Identity) : Prop :=
  i < n ∧ Corresponds (fun _ => True) ρ.leftObjects ρ.rightObjects i j

/-- The values are the same but for the numbers of scopes and objects, and these are carried. -/
inductive Carries (ρ : Renaming) (n : Nat) : Value → Value → Prop
  | int (k : Int64) : Carries ρ n (.int k) (.int k)
  | str {i j : Identity} (text : String) : ρ.CarriesObject n i j → Carries ρ n (.str i text) (.str j text)
  | bool (b : Bool) : Carries ρ n (.bool b) (.bool b)
  | null : Carries ρ n .null .null
  | ret {i j : Identity} {v w : Value} : ρ.CarriesObject n i j → Carries ρ n v w → Carries ρ n (.ret i v) (.ret j w)
  | error {i j : Identity} (message : String) :
      ρ.CarriesObject n i j → Carries ρ n (.error i message) (.error j message)
  | function {a b : ScopeId} (f : Function) : ρ.CarriesScope a b → Carries ρ n (.function ⟨f, a⟩) (.function ⟨f, b⟩)
  | builtin (b : Builtin) : Carries ρ n (.builtin b) (.builtin b)
  | array {i j : Identity} {vs ws : List Value} :
      ρ.CarriesObject n i j → List.Forall₂ (Carries ρ n) vs ws → Carries ρ n (.array i vs) (.array j ws)
  | hash {i j : Identity} {t u : HashTable Value} :
      ρ.CarriesObject n i j → t.slots = u.slots → List.Forall₂ (EntryRelated (Carries ρ n)) t.toList u.toList →
      Carries ρ n (.hash i t) (.hash j u)

structure CarriesTable (ρ : Renaming) (n : Nat) (t u : HashTable Value) : Prop where
  slots : t.slots = u.slots
  entries : List.Forall₂ (EntryRelated (ρ.Carries n)) t.toList u.toList

variable {ρ : Renaming} {n m : Nat} {v w v' w' : Value}

/-- What is to be shown of carried values may be assumed of their parts. -/
@[elab_as_elim]
theorem Carries.induct {motive : (v w : Value) → ρ.Carries n v w → Prop} (int : ∀ k, motive _ _ (.int k))
    (str : ∀ {i j} text object, motive (.str i text) (.str j text) (.str text object))
    (bool : ∀ b, motive _ _ (.bool b)) (null : motive _ _ .null)
    (ret : ∀ {i j v w} object inner, motive v w inner → motive (.ret i v) (.ret j w) (.ret object inner))
    (error : ∀ {i j} message object, motive (.error i message) (.error j message) (.error message object))
    (function : ∀ {a b} f scope, motive (.function ⟨f, a⟩) (.function ⟨f, b⟩) (.function f scope))
    (builtin : ∀ b, motive _ _ (.builtin b))
    (array : ∀ {i j vs ws} object each, List.Forall₂ (fun v w => ∃ h, motive v w h) vs ws →
      motive (.array i vs) (.array j ws) (.array object each))
    (hash : ∀ {i j t u} object slots each, List.Forall₂ (EntryRelated fun v w => ∃ h, motive v w h) t.toList u.toList →
      motive (.hash i t) (.hash j u) (.hash object slots each))
    {v w : Value} (h : ρ.Carries n v w) : motive v w h :=
  @Carries.rec ρ n motive (fun vs ws _ => List.Forall₂ (fun v w => ∃ h, motive v w h) vs ws)
    (fun ps qs _ => List.Forall₂ (EntryRelated fun v w => ∃ h, motive v w h) ps qs)
    (fun p q _ => EntryRelated (fun v w => ∃ h, motive v w h) p q)
    int str bool null ret error function builtin array hash
    .nil (fun _ _ first rest => .cons ⟨_, first⟩ rest) .nil (fun _ _ first rest => .cons first rest)
    (fun hashable _ _ key value => .mk hashable ⟨_, key⟩ ⟨_, value⟩) v w h

theorem CarriesObject.mono {i j : Identity} (h : ρ.CarriesObject n i j) (le : n ≤ m) : ρ.CarriesObject m i j :=
  ⟨Nat.lt_of_lt_of_le h.1 le, h.2⟩

theorem Carries.mono (h : ρ.Carries n v w) (le : n ≤ m) : ρ.Carries m v w := by
  induction h using Carries.induct with
  | int k => exact .int k
  | str text object => exact .str text (object.mono le)
  | bool b => exact .bool b
  | null => exact .null
  | ret object _ more => exact .ret (object.mono le) more
  | error message object => exact .error message (object.mono le)
  | function f scope => exact .function f scope
  | builtin b => exact .builtin b
  | array object _ each => exact .array (object.mono le) (each.imp fun _ _ ⟨_, more⟩ => more)
  | hash object slots _ each =>
    exact .hash (object.mono le) slots (each.imp fun _ _ entry => entry.imp fun _ _ ⟨_, more⟩ => more)

section Values

theorem Carries.inspect_eq (h : ρ.Carries n v w) : v.inspect = w.inspect := by
  induction h using Carries.induct with
  | ret _ _ same => rw [Value.inspect, Value.inspect, same]
  | array _ _ each =>
    rw [Value.inspect, Value.inspect, Value.inspectElements_congr (each.imp fun _ _ ⟨_, same⟩ => same)]
  | @hash i j t u _ _ _ each =>
    have entries := Value.inspectEntries_congr (each.imp fun _ _ ⟨_, ⟨_, key⟩, _, value⟩ => ⟨key, value⟩)
    obtain ⟨⟨ps⟩, _⟩ := t
    obtain ⟨⟨qs⟩, _⟩ := u
    rw [Value.inspect, Value.inspect, Value.inspectTable, Value.inspectTable]
    exact congrArg (fun shown => "\x7b" ++ shown ++ "\x7d") entries
  | int | str | bool | null | error | function | builtin => simp [Value.inspect]

theorem Carries.kind_eq (h : ρ.Carries n v w) : v.kind = w.kind := by
  cases h <;> rfl

theorem Carries.isTruthy_eq (h : ρ.Carries n v w) : v.isTruthy = w.isTruthy := by
  cases h <;> rfl

theorem Carries.hashKey?_eq (h : ρ.Carries n v w) : v.hashKey? = w.hashKey? := by
  cases h <;> rfl

/-- Of carried pairs of values both are identical or neither. -/
theorem Carries.identical_eq (h : ρ.Carries n v w) (h' : ρ.Carries n v' w') : v.identical v' = w.identical w' := by
  have objects {i j i' j' : Identity} (object : ρ.CarriesObject n i j) (object' : ρ.CarriesObject n i' j') :
      (i == i') = (j == j') := by
    rw [Bool.eq_iff_iff, beq_iff_eq, beq_iff_eq]
    exact object.2.eq_iff object'.2
  have closures {f f' : Function} {a b a' b' : ScopeId} (scope : ρ.CarriesScope a b) (scope' : ρ.CarriesScope a' b') :
      Closure.same ⟨f, a⟩ ⟨f', a'⟩ = Closure.same ⟨f, b⟩ ⟨f', b'⟩ := by
    have same : (a == a') = (b == b') := by
      rw [Bool.eq_iff_iff, beq_iff_eq, beq_iff_eq]
      exact scope.eq_iff scope'
    rw [Closure.same, Closure.same, same]
  cases h <;> cases h' <;> first | rfl | exact objects ‹_› ‹_› | exact closures ‹_› ‹_›

theorem addElementScopes_related {vs ws : List Value} {found found' : List ScopeId}
    (each : List.Forall₂ (fun v w => ∀ {found found'}, List.Forall₂ ρ.CarriesScope found found' →
      List.Forall₂ ρ.CarriesScope (v.addScopes found) (w.addScopes found')) vs ws)
    (before : List.Forall₂ ρ.CarriesScope found found') :
    List.Forall₂ ρ.CarriesScope (Value.addElementScopes found vs) (Value.addElementScopes found' ws) := by
  induction each generalizing found found' with
  | nil => exact before
  | cons first _ ih =>
    rw [Value.addElementScopes, Value.addElementScopes]
    exact ih (first before)

theorem addEntryScopes_related {ps qs : List (Value × Value)} {found found' : List ScopeId}
    (each : List.Forall₂ (EntryRelated fun v w => ∀ {found found'}, List.Forall₂ ρ.CarriesScope found found' →
      List.Forall₂ ρ.CarriesScope (v.addScopes found) (w.addScopes found')) ps qs)
    (before : List.Forall₂ ρ.CarriesScope found found') :
    List.Forall₂ ρ.CarriesScope (Value.addEntryScopes found ps) (Value.addEntryScopes found' qs) := by
  induction each generalizing found found' with
  | nil => exact before
  | cons first _ ih =>
    obtain ⟨_, key, value⟩ := first
    rw [Value.addEntryScopes, Value.addEntryScopes]
    exact ih (value before)

theorem Carries.addScopes (h : ρ.Carries n v w) {found found' : List ScopeId}
    (before : List.Forall₂ ρ.CarriesScope found found') :
    List.Forall₂ ρ.CarriesScope (v.addScopes found) (w.addScopes found') := by
  induction h using Carries.induct generalizing found found' with
  | ret _ _ inner => exact inner before
  | function f scope => exact .cons scope before
  | array _ _ each =>
    rw [Value.addScopes, Value.addScopes]
    exact addElementScopes_related (each.imp fun _ _ ⟨_, inner⟩ _ _ before => inner before) before
  | @hash i j t u _ _ _ each =>
    obtain ⟨⟨ps⟩, _⟩ := t
    obtain ⟨⟨qs⟩, _⟩ := u
    rw [Value.addScopes, Value.addScopes, Value.addTableScopes, Value.addTableScopes]
    refine addEntryScopes_related (each.imp fun _ _ entry => entry.imp fun _ _ ⟨_, inner⟩ _ _ before => ?_) before
    exact inner before
  | int | str | bool | null | error | builtin => exact before

/-- The closures of carried values are over scopes that are carried. -/
theorem Carries.scopes (h : ρ.Carries n v w) : List.Forall₂ ρ.CarriesScope v.scopes w.scopes := h.addScopes .nil

end Values

section Tables

variable {t u : HashTable Value}

theorem CarriesTable.mono (h : ρ.CarriesTable n t u) (le : n ≤ m) : ρ.CarriesTable m t u :=
  ⟨h.slots, h.entries.imp fun _ _ entry => entry.imp fun _ _ carried => carried.mono le⟩

theorem carriesTable_empty : ρ.CarriesTable n {} {} := ⟨rfl, .nil⟩

theorem CarriesTable.find? (h : ρ.CarriesTable n t u) (place : HashKey) :
    Option.Rel (EntryRelated (ρ.Carries n)) (t.find? place) (u.find? place) := by
  unfold HashTable.find?
  rw [h.slots]
  cases u.slots[place]? with
  | none => exact .none
  | some slot =>
    dsimp only [Option.bind]
    rw [← Array.getElem?_toList, ← Array.getElem?_toList]
    exact getElem?_related h.entries slot

theorem CarriesTable.insert (h : ρ.CarriesTable n t u) (place : HashKey) (hashable : v.hashKey?.isSome)
    (key : ρ.Carries n v w) (value : ρ.Carries n v' w') :
    ρ.CarriesTable n (t.insert place v v') (u.insert place w w') := by
  have size : t.entries.size = u.entries.size := h.entries.length_eq
  unfold HashTable.insert
  rw [h.slots]
  cases u.slots[place]? with
  | none =>
    refine ⟨?_, ?_⟩
    · dsimp only
      rw [size]
    unfold HashTable.toList
    dsimp only
    rw [Array.toList_push, Array.toList_push]
    exact List.rel_append h.entries (.cons (.mk hashable key value) .nil)
  | some slot =>
    refine ⟨rfl, ?_⟩
    unfold HashTable.toList
    dsimp only
    rw [Array.toList_setIfInBounds, Array.toList_setIfInBounds]
    exact set_related h.entries slot (.mk hashable key value)

end Tables

section Operations

variable {i j : Identity}

theorem carries_checkedInt (operation : String) (k : Int) :
    ResultsRelated (ρ.Carries n) (checkedInt operation k) (checkedInt operation k) := by
  unfold checkedInt
  split
  · exact .ok (.int _)
  · exact .error _

theorem carries_applyToInts (op : BinaryOp) (k l : Int64) :
    ResultsRelated (ρ.Carries n) (applyToInts op k l) (applyToInts op k l) := by
  unfold applyToInts
  split
  · exact carries_checkedInt _ _
  · exact carries_checkedInt _ _
  · exact carries_checkedInt _ _
  · split
    · exact .error _
    · exact carries_checkedInt _ _
  all_goals exact .ok (.bool _)

theorem carries_unary (op : UnaryOp) (h : ρ.Carries n v w) :
    ResultsRelated (ρ.Carries n) (op.apply v) (op.apply w) := by
  cases op with
  | not =>
    rw [UnaryOp.apply, UnaryOp.apply, h.isTruthy_eq]
    exact .ok (.bool _)
  | neg => cases h with
    | int k => exact carries_checkedInt _ _
    | _ => exact .error _

theorem carries_binary (op : BinaryOp) (fresh : ρ.CarriesObject n i j) (left : ρ.Carries n v w)
    (right : ρ.Carries n v' w') : ResultsRelated (ρ.Carries n) (op.apply i v v') (op.apply j w w') := by
  have others (notInts : ∀ k l, v = .int k → v' = .int l → False)
      (notStrings : ∀ i s j t, v = .str i s → v' = .str j t → False)
      (notInts' : ∀ k l, w = .int k → w' = .int l → False)
      (notStrings' : ∀ i s j t, w = .str i s → w' = .str j t → False) :
      ResultsRelated (ρ.Carries n) (op.apply i v v') (op.apply j w w') := by
    rw [op.apply_of_others i notInts notStrings, op.apply_of_others j notInts' notStrings', left.identical_eq right,
      left.kind_eq, right.kind_eq]
    split
    · exact .ok (.bool _)
    · split
      · exact .ok (.bool _)
      · split
        · exact .error _
        · exact .error _
  cases left with
  | int k => cases right with
    | int l => exact carries_applyToInts op k l
    | _ => exact others nofun nofun nofun nofun
  | str s _ => cases right with
    | str t _ => cases op with
      | add => exact .ok (.str _ fresh)
      | _ => exact .error _
    | _ => exact others nofun nofun nofun nofun
  | _ => exact others nofun nofun nofun nofun

variable {vs ws : List Value}

theorem carries_withArray (b : Builtin) {f f' : List Value → Value} (h : List.Forall₂ (ρ.Carries n) vs ws)
    (same : ∀ {vs ws}, List.Forall₂ (ρ.Carries n) vs ws → ρ.Carries n (f vs) (f' ws)) :
    ResultsRelated (ρ.Carries n) (b.withArray vs f) (b.withArray ws f') := by
  have count : ResultsRelated (ρ.Carries n) (.error (.builtinArgumentCount vs.length 1))
      (.error (.builtinArgumentCount ws.length 1)) := h.length_eq ▸ .error _
  cases h with
  | nil => exact count
  | cons first rest => cases first with
    | array _ each => cases rest with
      | nil => exact .ok (same each)
      | cons => exact count
    | _ => cases rest with
      | nil => exact .error _
      | cons => exact count

/-- Built-in functions take carried values to carried values. -/
theorem carries_builtin (b : Builtin) (fresh : ρ.CarriesObject n i j) (h : List.Forall₂ (ρ.Carries n) vs ws) :
    ResultsRelated (ρ.Carries n) (b.result i vs) (b.result j ws) := by
  have count (want : Nat) : ResultsRelated (ρ.Carries n) (.error (.builtinArgumentCount vs.length want))
      (.error (.builtinArgumentCount ws.length want)) := h.length_eq ▸ .error _
  cases b with
  | len => cases h with
    | nil => exact count 1
    | cons first rest => cases first with
      | str => cases rest with
        | nil => exact .ok (.int _)
        | cons => exact count 1
      | array _ each => cases rest with
        | nil =>
          rw [Builtin.result, Builtin.result, each.length_eq]
          exact .ok (.int _)
        | cons => exact count 1
      | _ => cases rest with
        | nil => exact .error _
        | cons => exact count 1
  | puts => exact .ok .null
  | first =>
    refine carries_withArray .first h fun {vs ws} each => ?_
    cases each with
    | nil => exact .null
    | cons first _ => exact first
  | last =>
    refine carries_withArray .last h fun {vs ws} each => ?_
    rw [List.getLast?_eq_getElem?, List.getLast?_eq_getElem?, each.length_eq]
    exact getD_related (getElem?_related each _) .null
  | rest =>
    refine carries_withArray .rest h fun {vs ws} each => ?_
    cases each with
    | nil => exact .null
    | cons _ rest => exact .array fresh rest
  | push => cases h with
    | nil => exact count 2
    | cons first rest => cases rest with
      | nil => cases first <;> exact count 2
      | cons second rest => cases first with
        | array _ each => cases rest with
          | nil => exact .ok (.array fresh (List.rel_append each (.cons second .nil)))
          | cons => exact count 2
        | _ => cases rest with
          | nil => exact .error _
          | cons => exact count 2

theorem print_eq (b : Builtin) (h : List.Forall₂ (ρ.Carries n) vs ws) (printer : Printer) :
    b.print vs printer = b.print ws printer := by
  cases b with
  | puts =>
    unfold Builtin.print
    dsimp only
    induction h generalizing printer with
    | nil => rfl
    | cons first _ ih =>
      rw [List.foldl_cons, List.foldl_cons, first.inspect_eq]
      exact ih _
  | _ => rfl

end Operations

end Renaming

end Monkey
