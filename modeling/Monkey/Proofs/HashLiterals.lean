import Monkey.Proofs.Contexts
import Monkey.Proofs.InsertionOrder

namespace Monkey

open Evaluator CallTree

/-- The hash key as the pair of a kind and a code. An integer has its bit pattern for a code, a string the code that
the hash function finds for it. -/
def HashKey.code (stringCode : String → UInt64) : HashKey → Kind × UInt64
  | .int n => (.int, n.toUInt64)
  | .bool b => (.bool, b.toUInt64)
  | .str s => (.str, stringCode s)

/-- Hash keys are told apart by their codes if the hash function tells their strings apart. -/
theorem HashKey.code_eq_iff {stringCode : String → UInt64} {g h : HashKey}
    (apart : ∀ a b, g = .str a → h = .str b → a ≠ b → stringCode a ≠ stringCode b) :
    g.code stringCode = h.code stringCode ↔ g = h := by
  refine ⟨fun same => ?_, fun same => congrArg _ same⟩
  have kinds := congrArg Prod.fst same
  have codes := congrArg Prod.snd same
  cases g with
  | int m =>
    cases h with
    | int n => exact congrArg (fun bits => HashKey.int (.ofUInt64 bits)) codes
    | bool | str => cases kinds
  | bool a =>
    cases h with
    | bool b =>
      have distinct : ∀ a b : Bool, a.toUInt64 = b.toUInt64 → a = b := by decide
      exact congrArg HashKey.bool (distinct a b codes)
    | int | str => cases kinds
  | str a =>
    cases h with
    | str b =>
      have equal : a = b := by
        by_contra other
        exact apart a b rfl rfl other codes
      rw [equal]
    | int | bool => cases kinds

namespace Value

/-- The key in a hash is the same: a value of the same kind that is equal. -/
def sameKey (v w : Value) : Bool := v.kind = w.kind && v.equal w

theorem sameKey_iff {v w : Value} : v.sameKey w ↔ v.kind = w.kind ∧ v.equal w := by
  simp [sameKey]

/-- Values have the same hash key when they are of one kind and equal. -/
theorem hashKey?_eq_iff {v w : Value} {h : HashKey} (hashable : w.hashKey? = some h) :
    v.hashKey? = some h ↔ v.sameKey w := by
  cases w <;> cases hashable <;> cases v <;> simp [hashKey?, sameKey, kind, equal]

end Value

/-- What has been written, as inserts into a table. -/
def insertsOf (written : List (Value × Value)) : List (HashKey × Value × Value) :=
  written.filterMap fun p => p.1.hashKey?.map fun h => (h, p)

/-- The value that was written last for the key; null if there is none. -/
def lastWritten (written : List (Value × Value)) (key : Value) : Value :=
  (written.reverse.find? (·.1.sameKey key)).elim .null (·.2)

theorem insertsOf_cons {key v : Value} {h : HashKey} (hashable : key.hashKey? = some h)
    (written : List (Value × Value)) : insertsOf ((key, v) :: written) = (h, key, v) :: insertsOf written := by
  simp [insertsOf, hashable]

theorem lastInsert?_insertsOf {key : Value} {h : HashKey} (hashable : key.hashKey? = some h)
    (written : List (Value × Value)) :
    HashTable.lastInsert? (insertsOf written) h = written.reverse.find? (·.1.sameKey key) := by
  have same (p : Value × Value) :
      (p.1.hashKey?.map fun h => (h, p)).any (·.1 == h) = p.1.sameKey key := by
    rw [Bool.eq_iff_iff, ← Value.hashKey?_eq_iff hashable]
    cases p.1.hashKey? <;> simp
  rw [HashTable.lastInsert?, insertsOf, ← List.filterMap_reverse, List.find?_filterMap]
  simp only [same]
  cases found : written.reverse.find? (·.1.sameKey key) with
  | none => rfl
  | some p =>
    have equal : p.1.sameKey key := by simpa using List.find?_some found
    have own := (Value.hashKey?_eq_iff hashable).2 equal
    simp [own]

namespace Evaluator

/-- The keys and values of the pairs, evaluated in order, come to those written, and all keys can be keys of a hash. -/
inductive PairsEnd (release : Release) (site : Site) :
    State → List (Expr × Expr) → List (Value × Value) → State → Prop
  | nil {s} : PairsEnd release site s [] [] s
  | cons {s s₁ s₂ t pairs written} {k e : Expr} {key v : Value} {h : HashKey} :
      (Goal.expression k site).Ends release s (.ok key) s₁ → key.hashKey? = some h →
      (Goal.expression e site).Ends release s₁ (.ok v) s₂ → PairsEnd release site s₂ pairs written t →
      PairsEnd release site s ((k, e) :: pairs) ((key, v) :: written) t

variable {release : Release} {site : Site} {s t u : State} {pairs : List (Expr × Expr)}
  {written : List (Value × Value)}

/-- The pairs are put into the table in order. -/
theorem PairsEnd.table (h : PairsEnd release site s pairs written u) (t : HashTable Value) :
    (Goal.table t pairs site).Ends release s (.ok (t.insertAll (insertsOf written))) u := by
  induction h generalizing t with
  | nil => exact .done _ _
  | cons givesKey hashable givesValue _ ih =>
    rw [insertsOf_cons hashable]
    exact returns_bind givesKey.called
      (returns_bind (returns_hashKey hashable) (returns_bind givesValue.called (ih _).called))

/-- A literal comes to a new hash with the pairs put in. -/
theorem PairsEnd.literal (h : PairsEnd release site s pairs written t) (span : Span) :
    (Goal.expression (.hash pairs span) site).Ends release s
      (.ok (.hash t.objects (.insertAll {} (insertsOf written)))) { t with objects := t.objects + 1 } :=
  returns_bind (h.table {}).called (.done _ _)

/-- The element of a hash at a key is what was written last for the key. -/
theorem index_insertAll {key : Value} (hashable : key.hashKey?.isSome) (id : Identity)
    (written : List (Value × Value)) :
    index (.hash id (.insertAll {} (insertsOf written))) key = pure (lastWritten written key) := by
  obtain ⟨h, hashable⟩ := Option.isSome_iff_exists.1 hashable
  have found := (HashTable.ordered_insertAll (insertsOf written)).find h
  rw [lastInsert?_insertsOf hashable] at found
  simp only [index, hashKey, hashable, pure_bind, found, lastWritten]

end Evaluator

/-- Hashes are ordered maps. A table that was filled by inserts holds for each hash key what was last put in by it, in
the order of first insertion. Hash keys are the same for keys of one kind that are equal, and so are their codes if no
two strings share one. A hash literal whose keys and values can be evaluated comes to a hash, and that gives for every
key what was written last for it. -/
theorem hashes_ordered :
    (∀ (α : Type) (inserts : List (HashKey × α × α)), HashTable.Ordered inserts (.insertAll {} inserts)) ∧
      (∀ (v w : Value) (g h : HashKey), v.hashKey? = some g → w.hashKey? = some h →
        (g = h ↔ v.kind = w.kind ∧ v.equal w) ∧
          ∀ stringCode : String → UInt64,
            (∀ a b, g = .str a → h = .str b → a ≠ b → stringCode a ≠ stringCode b) →
              (g.code stringCode = h.code stringCode ↔ v.kind = w.kind ∧ v.equal w)) ∧
      ∀ (release : Release) (site : Site) (s t : State) (pairs : List (Expr × Expr)) (written : List (Value × Value))
        (span : Span), PairsEnd release site s pairs written t →
          let hash : Value := .hash t.objects (.insertAll {} (insertsOf written))
          let made : State := { t with objects := t.objects + 1 }
          (Goal.expression (.hash pairs span) site).Ends release s (.ok hash) made ∧
            (∀ key, key.hashKey?.isSome → index hash key = pure (lastWritten written key)) ∧
              ∀ (i : Expr) (key : Value) (u : State) (span' : Span), key.hashKey?.isSome →
                (Goal.expression i site).Ends release made (.ok key) u →
                  (Goal.expression (.index (.hash pairs span) i span') site).Ends release s
                    (.ok (lastWritten written key)) u := by
  refine ⟨fun _ => HashTable.ordered_insertAll, fun v w g h left right => ?_,
    fun release site s t pairs written span ends => ?_⟩
  · have same : g = h ↔ v.kind = w.kind ∧ v.equal w := by
      rw [← Value.sameKey_iff, ← Value.hashKey?_eq_iff right, left, Option.some_inj]
    exact ⟨same, fun stringCode apart => (HashKey.code_eq_iff apart).trans same⟩
  · have literal := ends.literal span
    have element {key : Value} (hashable : key.hashKey?.isSome) := index_insertAll hashable t.objects written
    refine ⟨literal, fun key => element, fun i key u span' hashable givesKey => ?_⟩
    refine returns_bind literal.called (returns_bind givesKey.called ?_)
    rw [element hashable]
    exact .done _ _

/-- Two strings with their codes, a key that is put in twice and a key that is written twice. -/
theorem hashes_ordered_twice :
    let inserts : List (HashKey × String × String) := [(.int 1, "1", "x"), (.int 2, "2", "y"), (.int 1, "1", "z")]
    let stringCode (s : String) : UInt64 := if s = "a" then 0xbd8e8067b4be2f50 else 0x20cff23eb5da8584
    let a : Expr := .str "a" default
    let pairs : List (Expr × Expr) := [(a, .int 1 default), (.bool true default, .int 2 default), (a, .int 3 default)]
    (HashTable.insertAll {} inserts).find? (.int 1) = some ("1", "z") ∧
      (HashKey.str "a").code stringCode ≠ (HashKey.str "b").code stringCode ∧
      (Goal.expression (.index (.hash pairs default) a default) ⟨0, 0⟩).Ends .unreached default (.ok (.int 3))
        { (default : State) with objects := 4 } := by
  intro inserts stringCode a pairs
  obtain ⟨maps, hashKeys, literals⟩ := hashes_ordered
  refine ⟨?_, ?_, ?_⟩
  · rw [(maps _ inserts).find]
    rfl
  · have codes := (hashKeys (.str 0 "a") (.str 1 "b") _ _ rfl rfl).2 stringCode
      (by rintro _ _ ⟨⟩ ⟨⟩; decide)
    simp [codes, Value.equal]
  · let after (n : Nat) : State := { (default : State) with objects := n }
    have text (n : Nat) : (Goal.expression a ⟨0, 0⟩).Ends .unreached (after n) (.ok (.str n "a")) (after (n + 1)) :=
      .done _ _
    have number (n : Nat) (k : Int64) :
        (Goal.expression (.int k default) ⟨0, 0⟩).Ends .unreached (after n) (.ok (.int k)) (after n) := .done _ _
    have truth : (Goal.expression (.bool true default) ⟨0, 0⟩).Ends .unreached (after 1) (.ok (.bool true)) (after 1) :=
      .done _ _
    let written : List (Value × Value) := [(.str 0 "a", .int 1), (.bool true, .int 2), (.str 1 "a", .int 3)]
    have evaluated : PairsEnd .unreached ⟨0, 0⟩ (after 0) pairs written (after 2) :=
      .cons (text 0) rfl (number 1 1) (.cons truth rfl (number 1 2) (.cons (text 1) rfl (number 2 3) .nil))
    have found := (literals .unreached _ _ _ _ _ default evaluated).2.2 a (.str 3 "a") _ default rfl (text 3)
    have last : lastWritten written (.str 3 "a") = .int 3 := by
      simp [written, lastWritten, Value.sameKey, Value.kind, Value.equal]
    rw [last] at found
    exact found

end Monkey
