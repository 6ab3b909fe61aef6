import Monkey.Builtin
import Monkey.Operator
import Monkey.Store

namespace Monkey

namespace Value

theorem int_of_checkedInt {operation : String} {n : Int} {v : Value} (h : checkedInt operation n = .ok v) :
    ∃ k, v = .int k := by
  unfold checkedInt at h
  split at h
  · cases h
    exact ⟨_, rfl⟩
  · cases h

/-- An operator on one value makes a boolean or an integer. -/
theorem bool_or_int_of_unary {op : UnaryOp} {operand v : Value} (h : op.apply operand = .ok v) :
    (∃ b, v = .bool b) ∨ ∃ k, v = .int k := by
  unfold UnaryOp.apply at h
  split at h
  · cases h
    exact .inl ⟨_, rfl⟩
  · exact .inr (int_of_checkedInt h)
  · cases h

/-- What is made of `Old` values is a `New` value: a simple one, an old one, or an array of old ones, which gets the
identity `fresh`. -/
structure Heritage (fresh : Identity) (Old New : Value → Prop) : Prop where
  old {v : Value} : Old v → New v
  int (n : Int64) : New (.int n)
  bool (b : Bool) : New (.bool b)
  str (text : String) : New (.str fresh text)
  null : New .null
  array {vs : List Value} : (∀ v ∈ vs, Old v) → New (.array fresh vs)
  elements {id : Identity} {vs : List Value} : Old (.array id vs) → ∀ v ∈ vs, Old v

namespace Heritage

variable {fresh : Identity} {Old New : Value → Prop} {v : Value}

theorem getD (heritage : Heritage fresh Old New) {v : Option Value} (h : ∀ w ∈ v, Old w) : New (v.getD .null) := by
  cases v with
  | none => exact heritage.null
  | some w => exact heritage.old (h w rfl)

theorem checkedInt (heritage : Heritage fresh Old New) {operation : String} {n : Int}
    (h : checkedInt operation n = .ok v) : New v := by
  obtain ⟨k, rfl⟩ := int_of_checkedInt h
  exact heritage.int k

theorem applyToInts (heritage : Heritage fresh Old New) {op : BinaryOp} {m n : Int64}
    (h : applyToInts op m n = .ok v) : New v := by
  unfold Monkey.applyToInts at h
  split at h
  · exact heritage.checkedInt h
  · exact heritage.checkedInt h
  · exact heritage.checkedInt h
  · split at h
    · cases h
    · exact heritage.checkedInt h
  all_goals
    cases h
    exact heritage.bool _

/-- An operator makes a simple value. -/
theorem binary (heritage : Heritage fresh Old New) {op : BinaryOp} {left right : Value}
    (h : op.apply fresh left right = .ok v) : New v := by
  unfold BinaryOp.apply at h
  split at h
  · exact heritage.applyToInts h
  · split at h
    · cases h
      exact heritage.str _
    · cases h
  · split at h
    · cases h
      exact heritage.bool _
    · cases h
      exact heritage.bool _
    · split at h <;> cases h

theorem withArray (heritage : Heritage fresh Old New) {b : Builtin} {arguments : List Value} {f : List Value → Value}
    (each : ∀ w ∈ arguments, Old w) (keeps : ∀ vs : List Value, (∀ w ∈ vs, Old w) → New (f vs))
    (h : b.withArray arguments f = .ok v) : New v := by
  unfold Builtin.withArray at h
  split at h
  · next id vs =>
    cases h
    exact keeps vs (heritage.elements (each _ (.head _)))
  · cases h
  · cases h

/-- A built-in function makes a simple value, or takes it or its parts from its arguments. -/
theorem builtin (heritage : Heritage fresh Old New) {b : Builtin} {arguments : List Value}
    (each : ∀ w ∈ arguments, Old w) (h : b.result fresh arguments = .ok v) : New v := by
  cases b with
  | len =>
    simp only [Builtin.result] at h
    split at h <;> cases h <;> exact heritage.int _
  | puts =>
    cases h
    exact heritage.null
  | first =>
    refine heritage.withArray each (fun vs each => heritage.getD fun w mem => ?_) h
    exact each w (List.mem_of_mem_head? mem)
  | last =>
    refine heritage.withArray each (fun vs each => heritage.getD fun w mem => ?_) h
    exact each w (List.mem_of_mem_getLast? mem)
  | rest =>
    refine heritage.withArray each (fun vs each => ?_) h
    cases vs with
    | nil => exact heritage.null
    | cons w ws => exact heritage.array fun v mem => each v (.tail _ mem)
  | push =>
    simp only [Builtin.result] at h
    split at h
    · next id vs w =>
      cases h
      refine heritage.array fun v mem => ?_
      rcases List.mem_append.1 mem with old | added
      · exact heritage.elements (each _ (.head _)) v old
      · rw [List.mem_singleton.1 added]
        exact each w (.tail _ (.head _))
    · cases h
    · cases h

end Heritage

/-- Simple values have the property, and an array has it exactly if all its elements have it. -/
structure Hereditary (P : Value → Prop) : Prop where
  int (n : Int64) : P (.int n)
  bool (b : Bool) : P (.bool b)
  str (id : Identity) (text : String) : P (.str id text)
  null : P .null
  array (id : Identity) (vs : List Value) : P (.array id vs) ↔ ∀ v ∈ vs, P v

namespace Hereditary

variable {P : Value → Prop} {v : Value}

/-- Under one property the identities of new objects do not count. -/
theorem heritage (hereditary : Hereditary P) (fresh : Identity) : Heritage fresh P P where
  old h := h
  int := hereditary.int
  bool := hereditary.bool
  str := hereditary.str fresh
  null := hereditary.null
  array := (hereditary.array fresh _).2
  elements := (hereditary.array _ _).1

theorem getD (hereditary : Hereditary P) {v : Option Value} (h : ∀ w ∈ v, P w) : P (v.getD .null) :=
  (hereditary.heritage 0).getD h

theorem unary (hereditary : Hereditary P) {op : UnaryOp} {operand : Value} (h : op.apply operand = .ok v) : P v := by
  obtain ⟨b, rfl⟩ | ⟨k, rfl⟩ := bool_or_int_of_unary h
  · exact hereditary.bool b
  · exact hereditary.int k

theorem binary (hereditary : Hereditary P) {op : BinaryOp} {fresh : Identity} {left right : Value}
    (h : op.apply fresh left right = .ok v) : P v :=
  (hereditary.heritage fresh).binary h

theorem builtin (hereditary : Hereditary P) {b : Builtin} {fresh : Identity} {arguments : List Value}
    (each : ∀ w ∈ arguments, P w) (h : b.result fresh arguments = .ok v) : P v :=
  (hereditary.heritage fresh).builtin each h

end Hereditary

end Value

section Tables

variable {P : Value × Value → Prop} {t : HashTable Value} {h : HashKey} {key value : Value}

/-- Of a table with an entry put into it the entries are the old ones and the new one. -/
theorem HashTable.forall_entries_insert (old : ∀ p ∈ t.entries, P p) (new : P (key, value)) :
    ∀ p ∈ (t.insert h key value).entries, P p := by
  intro p mem
  unfold HashTable.insert at mem
  split at mem
  · rcases Array.mem_or_eq_of_mem_setIfInBounds mem with there | rfl
    · exact old p there
    · exact new
  · rcases Array.mem_push.1 mem with there | rfl
    · exact old p there
    · exact new

theorem HashTable.of_find? {p : Value × Value} (each : ∀ p ∈ t.entries, P p) (found : t.find? h = some p) : P p := by
  obtain ⟨i, _, entry⟩ := Option.bind_eq_some_iff.1 found
  exact each p (Array.mem_of_getElem? entry)

end Tables

/-- All values that are bound in any scope have the property. -/
def Store.Binds (P : Value → Prop) (s : Store) : Prop :=
  ∀ (id : ScopeId) (name : String) (v : Value), s.bound? id name = some v → P v

namespace Store.Binds

variable {P : Value → Prop} {s : Store} {id : ScopeId} {name : String} {v : Value}

theorem empty : Store.Binds P {} := by
  intro id name v found
  simp [bound?] at found

theorem mono {Q : Value → Prop} (h : s.Binds P) (le : ∀ v, P v → Q v) : s.Binds Q :=
  fun id name v found => le v (h id name v found)

theorem enter {outer : Option ScopeId} {bindings : Std.TreeMap String Value} (h : s.Binds P)
    (new : ∀ (name : String) (v : Value), bindings[name]? = some v → P v) : (s.enter outer bindings).2.Binds P := by
  intro id name v found
  rw [bound?_enter] at found
  split at found
  · exact new name v found
  · exact h id name v found

theorem bind (h : s.Binds P) (new : P v) : (s.bind id name v).Binds P := by
  intro id' name' w found
  rw [bound?_bind] at found
  split at found
  · cases found
    exact new
  · exact h id' name' w found

theorem capture (h : s.Binds P) : (s.capture id).Binds P := by
  intro id' name v found
  rw [bound?_capture] at found
  exact h id' name v found

theorem clear (h : s.Binds P) : (s.clear id).Binds P := by
  intro id' name v found
  rw [bound?_clear] at found
  split at found
  · cases found
  · exact h id' name v found

theorem lookup? (h : s.Binds P) (found : s.lookup? name id = some v) : P v := by
  fun_induction Store.lookup? s name id with
  | case1 id w bound =>
    cases found
    exact h id name v bound
  | case2 => cases found
  | case3 id unbound outer around lt ih => exact ih found
  | case4 => cases found

end Store.Binds

end Monkey
