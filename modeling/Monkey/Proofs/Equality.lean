import Monkey.Proofs.EnvironmentChains
import Monkey.Proofs.HashLiterals
import Monkey.Proofs.LiteralNumbers
import Monkey.Proofs.Objects
import Monkey.Renaming

namespace Monkey

open Evaluator

theorem Closure.same_iff {c d : Closure} : c.same d = true ↔
    (c.function.source = d.function.source ∧ c.function.place.number = d.function.place.number) ∧
      c.scope = d.scope := by
  simp [Closure.same, Function.sameLiteral]

/-- A closure that is the same as another is the same as all others that it is. -/
theorem Closure.same_congr {c d : Closure} (e : Closure) (h : c.same d = true) : c.same e = d.same e := by
  obtain ⟨⟨source, number⟩, scope⟩ := Closure.same_iff.1 h
  simp [Closure.same, Function.sameLiteral, source, number, scope]

namespace Value

/-- What is identical is identical to the same values. -/
theorem identical_congr {v w : Value} (u : Value) (h : v.identical w = true) : v.identical u = w.identical u := by
  cases v <;> cases w <;> simp only [identical, beq_iff_eq, Bool.false_eq_true] at h
  case function.function c d => cases u <;> simp only [identical, Closure.same_congr _ h]
  case null.null => rfl
  all_goals
    subst h
    cases u <;> rfl

mutual

/-- What is equal is equal to the same values. -/
theorem equal_congr : (v w u : Value) → v.equal w = true → v.equal u = w.equal u
  | .ret _ v, w, u, h => by
    cases w <;> simp only [equal, Bool.false_eq_true] at h
    cases u <;> simp only [equal]
    exact equal_congr v _ _ h
  | .array _ vs, w, u, h => by
    cases w <;> simp only [equal, Bool.false_eq_true] at h
    cases u <;> simp only [equal]
    exact equalElements_congr vs _ _ h
  | .hash _ t, w, u, h => by
    cases w <;> simp only [equal, Bool.false_eq_true] at h
    cases u <;> simp only [equal]
    exact equalTables_congr t _ _ h
  | .function c, w, u, h => by
    cases w <;> simp only [equal, Bool.false_eq_true] at h
    cases u <;> simp only [equal]
    exact Closure.same_congr _ h
  | .int _, w, u, h | .str _ _, w, u, h | .bool _, w, u, h | .error _ _, w, u, h | .builtin _, w, u, h => by
    cases w <;> simp only [equal, beq_iff_eq, Bool.false_eq_true] at h
    subst h
    cases u <;> simp only [equal]
  | .null, w, u, h => by
    cases w <;> simp only [equal, Bool.false_eq_true] at h
    rfl

theorem equalElements_congr : (vs ws us : List Value) → equalElements vs ws = true →
    equalElements vs us = equalElements ws us
  | [], ws, us, h => by
    cases ws <;> simp only [equalElements, Bool.false_eq_true] at h
    rfl
  | v :: vs, ws, us, h => by
    cases ws <;> simp only [equalElements, Bool.and_eq_true, Bool.false_eq_true] at h
    cases us <;> simp only [equalElements]
    rw [equal_congr v _ _ h.1, equalElements_congr vs _ _ h.2]

theorem equalTables_congr : (t u x : HashTable Value) → equalTables t u = true → equalTables t x = equalTables u x
  | ⟨⟨ps⟩, _⟩, ⟨⟨qs⟩, _⟩, x, h => by
    rw [equalTables] at h
    rw [equalTables, equalTables]
    exact equalEntries_congr ps qs x.toList h

theorem equalEntries_congr : (ps qs rs : List (Value × Value)) → equalEntries ps qs = true →
    equalEntries ps rs = equalEntries qs rs
  | [], [], _, _ => rfl
  | [], _ :: _, _, h | _ :: _, [], _, h => by simp only [equalEntries, Bool.false_eq_true] at h
  | _ :: _, _ :: _, [], _ => by simp only [equalEntries]
  | (k, v) :: ps, (l, w) :: qs, (m, x) :: rs, h => by
    simp only [equalEntries, Bool.and_eq_true] at h
    obtain ⟨⟨keys, values⟩, others⟩ := h
    rw [equalEntries, equalEntries, equal_congr k l m keys, equal_congr v w x values,
      equalEntries_congr ps qs rs others]

end

theorem equivalence_identical : Equivalence fun v w : Value => v.identical w = true where
  refl := identical_self
  symm := by
    intro v w h
    rw [← identical_congr v h, identical_self]
  trans := by
    intro v w u first second
    rw [identical_congr u first, second]

theorem equivalence_equal : Equivalence fun v w : Value => v.equal w = true where
  refl := equal_self
  symm := by
    intro v w h
    rw [← equal_congr v w v h, equal_self]
  trans := by
    intro v w u first second
    rw [equal_congr v w u first, second]

theorem kind_of_equal {v w : Value} (h : v.equal w = true) : v.kind = w.kind := by
  cases v <;> cases w <;> first | rfl | simp only [equal, Bool.false_eq_true] at h

theorem isTruthy_of_equal {v w : Value} (h : v.equal w = true) : v.isTruthy = w.isTruthy := by
  have kinds := kind_of_equal h
  cases v <;> cases w <;> cases kinds
  case bool.bool => simp only [equal, beq_iff_eq] at h; rw [h]
  all_goals rfl

theorem hashKey?_of_equal {v w : Value} (h : v.equal w = true) : v.hashKey? = w.hashKey? := by
  cases key : w.hashKey? with
  | some k => exact (hashKey?_eq_iff key).2 (sameKey_iff.2 ⟨kind_of_equal h, h⟩)
  | none =>
    have kinds := kind_of_equal h
    cases v <;> cases w <;> cases kinds <;> first | rfl | cases key

end Value

section Known

open Registry

variable {l : Library} {R : Registry}

/-- A literal is known by its source and its number. -/
theorem Library.function_eq {f g : Function} (literal : l.HasLiteral f) (literal' : l.HasLiteral g)
    (same : f.source = g.source ∧ f.place.number = g.place.number) : f = g := by
  obtain ⟨source, parameters, body, place⟩ := f
  obtain ⟨source', parameters', body', place'⟩ := g
  obtain ⟨rfl, number⟩ := same
  have node := l.numbered source _ _ place'.number literal literal' (congrArg some number) rfl
  cases node
  rfl

namespace Value

/-- One object has one content. -/
theorem equal_of_identical {v w : Value} (known : Knows l R v) (known' : Knows l R w) (h : v.identical w = true) :
    v.equal w = true := by
  have object {id : Identity} (own : v.identity? = some id) (own' : w.identity? = some id) : v.equal w = true := by
    have same := ((knows_iff.1 known).1.object id own).symm.trans ((knows_iff.1 known').1.object id own')
    cases same
    exact equal_self v
  cases v <;> cases w <;> simp only [identical, beq_iff_eq, Bool.false_eq_true] at h
  case function.function => rw [equal, h]
  case null.null => rw [equal]
  case int.int | bool.bool | builtin.builtin => simp only [equal, h, beq_self_eq_true]
  all_goals exact object rfl (congrArg some h.symm)

mutual

/-- Values with the same content look the same: closures over one literal show its text. -/
theorem inspect_of_equal : (v w : Value) → Knows l R v → Knows l R w → v.equal w = true → v.inspect = w.inspect
  | .ret _ v, w, known, known', h => by
    cases w <;> simp only [equal, Bool.false_eq_true] at h
    rw [inspect, inspect]
    exact inspect_of_equal v _ ((knows_iff.1 known).2 _ (.head _)) ((knows_iff.1 known').2 _ (.head _)) h
  | .array _ vs, w, known, known', h => by
    cases w <;> simp only [equal, Bool.false_eq_true] at h
    have alike := inspect_of_equalElements vs _ ((registering l).elements known) ((registering l).elements known') h
    rw [inspect, inspect, inspectElements_congr alike]
  | .hash _ t, w, known, known', h => by
    cases w <;> simp only [equal, Bool.false_eq_true] at h
    rw [inspect, inspect]
    exact inspectTable_of_equal t _ ((registering l).table known) ((registering l).table known') h
  | .function c, w, known, known', h => by
    cases w <;> simp only [equal, Bool.false_eq_true] at h
    have same := (Closure.same_iff.1 h).1
    have literal := (knows_iff.1 known).1.literal c rfl
    have literal' := (knows_iff.1 known').1.literal _ rfl
    rw [inspect, inspect, Library.function_eq literal literal' same]
  | .int _, w, _, _, h | .str _ _, w, _, _, h | .bool _, w, _, _, h | .error _ _, w, _, _, h => by
    cases w <;> simp only [equal, beq_iff_eq, Bool.false_eq_true] at h
    subst h
    rfl
  | .builtin _, w, _, _, h | .null, w, _, _, h => by
    cases w <;> simp only [equal, Bool.false_eq_true] at h
    rfl

theorem inspect_of_equalElements : (vs ws : List Value) → (∀ v ∈ vs, Knows l R v) → (∀ w ∈ ws, Knows l R w) →
    equalElements vs ws = true → List.Forall₂ (fun v w => v.inspect = w.inspect) vs ws
  | [], [], _, _, _ => .nil
  | [], _ :: _, _, _, h | _ :: _, [], _, _, h => by simp only [equalElements, Bool.false_eq_true] at h
  | v :: vs, w :: ws, known, known', h => by
    simp only [equalElements, Bool.and_eq_true] at h
    have first := inspect_of_equal v w (known v (.head _)) (known' w (.head _)) h.1
    refine .cons first (inspect_of_equalElements vs ws ?_ ?_ h.2)
    · exact fun v mem => known v (.tail _ mem)
    · exact fun w mem => known' w (.tail _ mem)

theorem inspectTable_of_equal : (t u : HashTable Value) → (∀ p ∈ t.entries, Knows l R p.1 ∧ Knows l R p.2) →
    (∀ p ∈ u.entries, Knows l R p.1 ∧ Knows l R p.2) → equalTables t u = true → inspectTable t = inspectTable u
  | ⟨⟨ps⟩, _⟩, ⟨⟨qs⟩, _⟩, known, known', h => by
    rw [equalTables] at h
    have each : ∀ p ∈ ps, Knows l R p.1 ∧ Knows l R p.2 := fun p mem => known p (List.mem_toArray.2 mem)
    have each' : ∀ p ∈ qs, Knows l R p.1 ∧ Knows l R p.2 := fun p mem => known' p (List.mem_toArray.2 mem)
    rw [inspectTable, inspectTable, inspectEntries_congr (inspect_of_equalEntries ps qs each each' h)]

theorem inspect_of_equalEntries : (ps qs : List (Value × Value)) → (∀ p ∈ ps, Knows l R p.1 ∧ Knows l R p.2) →
    (∀ p ∈ qs, Knows l R p.1 ∧ Knows l R p.2) → equalEntries ps qs = true →
    List.Forall₂ (fun p q => p.1.inspect = q.1.inspect ∧ p.2.inspect = q.2.inspect) ps qs
  | [], [], _, _, _ => .nil
  | [], _ :: _, _, _, h | _ :: _, [], _, _, h => by simp only [equalEntries, Bool.false_eq_true] at h
  | (k, v) :: ps, (k', w) :: qs, known, known', h => by
    simp only [equalEntries, Bool.and_eq_true] at h
    obtain ⟨knownKey, knownValue⟩ := known _ (.head _)
    obtain ⟨knownKey', knownValue'⟩ := known' _ (.head _)
    have keys := inspect_of_equal k k' knownKey knownKey' h.1.1
    have values := inspect_of_equal v w knownValue knownValue' h.1.2
    refine .cons ⟨keys, values⟩ (inspect_of_equalEntries ps qs ?_ ?_ h.2)
    · exact fun p mem => known p (.tail _ mem)
    · exact fun q mem => known' q (.tail _ mem)

end

end Value

end Known

namespace BinaryOp

variable (n m : Identity) (v w : Value)

/-- Equality is identity, except that it is not defined of two strings. -/
theorem eq_apply : eq.apply n v w =
    if v.kind = .str ∧ w.kind = .str then .error (.unknownBinary .str .eq .str) else .ok (.bool (v.identical w)) := by
  cases v <;> cases w <;> rfl

theorem notEq_apply : notEq.apply n v w =
    if v.kind = .str ∧ w.kind = .str then .error (.unknownBinary .str .notEq .str)
    else .ok (.bool !v.identical w) := by
  cases v <;> cases w <;> rfl

/-- Equality and inequality both fail, or say opposite things. -/
theorem eq_notEq : (∃ e e', eq.apply n v w = .error e ∧ notEq.apply m v w = .error e') ∨
    ∃ b, eq.apply n v w = .ok (.bool b) ∧ notEq.apply m v w = .ok (.bool !b) := by
  rw [eq_apply, notEq_apply]
  by_cases strings : v.kind = .str ∧ w.kind = .str
  · rw [if_pos strings, if_pos strings]
    exact .inl ⟨_, _, rfl, rfl⟩
  · rw [if_neg strings, if_neg strings]
    exact .inr ⟨_, rfl, rfl⟩

theorem eq_symm : eq.apply n v w = eq.apply m w v := by
  have both : (v.kind = .str ∧ w.kind = .str) = (w.kind = .str ∧ v.kind = .str) := propext And.comm
  have same : v.identical w = w.identical v :=
    Bool.eq_iff_iff.2 ⟨Value.equivalence_identical.symm, Value.equivalence_identical.symm⟩
  simp only [eq_apply, both, same]

theorem eq_self (other : v.kind ≠ .str) : eq.apply n v v = .ok (.bool true) := by
  rw [eq_apply, if_neg fun both => other both.1, Value.identical_self]

end BinaryOp

/-- The library of the texts that are loaded. -/
def Library.ofTexts (text : SourceId → String) : Library where
  program source := (parse (text source)).program
  numbered source := numbered_parse (text source)

/-- The equalities form a tower. Identity and equality of content are equivalences. Among the objects of a run identical
ones are equal, and equal ones are of the same kind, look the same, are both true or not, and have the same hash key or
none; the hash keys of integers, booleans and strings tell unequal ones apart, if the hash function does so for the
strings. The operators `==` and `!=` both fail or say opposite things, `==` is symmetric, and of a value that is no
string and itself it says `true`. -/
theorem equalities_tower {l : Library} {objects : Value → Prop} {finish : Option State} (run : Run l objects finish) :
    (Equivalence fun v w : Value => v.identical w = true) ∧ (Equivalence fun v w : Value => v.equal w = true) ∧
    (∀ v w : Value, objects v → objects w →
      (v.identical w = true → v.equal w = true) ∧
      (v.equal w = true →
        v.kind = w.kind ∧ v.inspect = w.inspect ∧ v.isTruthy = w.isTruthy ∧ v.hashKey? = w.hashKey?) ∧
      ∀ (stringCode : String → UInt64) (g h : HashKey), v.hashKey? = some g → w.hashKey? = some h →
        (∀ a b, g = .str a → h = .str b → a ≠ b → stringCode a ≠ stringCode b) →
        g.code stringCode = h.code stringCode → v.equal w = true) ∧
    ∀ (v w : Value) (n m : Identity),
      ((∃ e e', BinaryOp.eq.apply n v w = .error e ∧ BinaryOp.notEq.apply m v w = .error e') ∨
        ∃ b, BinaryOp.eq.apply n v w = .ok (.bool b) ∧ BinaryOp.notEq.apply m v w = .ok (.bool !b)) ∧
      BinaryOp.eq.apply n v w = BinaryOp.eq.apply m w v ∧
      (v.kind ≠ .str → BinaryOp.eq.apply n v v = .ok (.bool true)) := by
  obtain ⟨R, known, _⟩ := run.exists_registry
  refine ⟨Value.equivalence_identical, Value.equivalence_equal, fun v w there there' => ⟨?_, ?_, ?_⟩, ?_⟩
  · exact Value.equal_of_identical (known v there) (known w there')
  · intro same
    exact ⟨Value.kind_of_equal same, Value.inspect_of_equal v w (known v there) (known w there') same,
      Value.isTruthy_of_equal same, Value.hashKey?_of_equal same⟩
  · intro stringCode g h key key' apart codes
    obtain rfl := (HashKey.code_eq_iff apart).1 codes
    exact (Value.sameKey_iff.1 ((Value.hashKey?_eq_iff key').1 key)).2
  · intro v w n m
    exact ⟨BinaryOp.eq_notEq n m v w, BinaryOp.eq_symm n m v w, BinaryOp.eq_self n v⟩

/-- Two arrays of the same two closures are equal and look the same, though they are two objects. -/
theorem equalities_tower_arrays :
    let l := Library.ofTexts fun _ => "let f = fn(x) \x7b x \x7d; [[f, f], [f, f]]"
    ∃ (objects : Value → Prop) (t : State) (v w : Value), Run l objects (some t) ∧ objects v ∧ objects w ∧
      v.identical w = false ∧ v.equal w = true ∧ v.inspect = w.inspect ∧
      BinaryOp.eq.apply t.objects v w = BinaryOp.eq.apply t.objects w v := by
  have value : ((({ budget := 99 } : Interpreter).evalNode
      (.program (parse "let f = fn(x) \x7b x \x7d; [[f, f], [f, f]]").program) ⟨0, 0⟩
      { store := (Store.enter {} none {}).2, printer := { target := .silent } }).any fun p =>
        (p.1.map Value.children).any fun vs => (vs.zip vs.tail).any fun q => !q.1.identical q.2 && q.1.equal q.2) =
          true := by
    decide +kernel
  intro l
  have root : Run l (fun _ => False) _ := .root { target := .silent }
  obtain ⟨⟨x, t⟩, evaluated, holds⟩ := (Option.any_eq_true _ _).1 value
  have supplied : l.Supplies 0 (.program (parse "let f = fn(x) \x7b x \x7d; [[f, f], [f, f]]").program) :=
    fun st mem => ⟨st, mem, .self _⟩
  obtain ⟨objects, run, there⟩ := root.exists_evalNode supplied evaluated
  obtain ⟨vs, children, some⟩ := (Option.any_eq_true _ _).1 holds
  obtain ⟨whole, rfl, rfl⟩ := Option.map_eq_some_iff.1 children
  obtain ⟨⟨v, w⟩, two, alike⟩ := List.any_eq_true.1 some
  obtain ⟨first, others⟩ := List.of_mem_zip two
  have second : w ∈ whole.children := List.mem_of_mem_tail others
  have run' := (run.taken (there whole (.inr rfl)) first).taken (.inl (there whole (.inr rfl))) second
  obtain ⟨different, same⟩ := Bool.and_eq_true_iff.1 alike
  obtain ⟨_, _, objectwise, operators⟩ := equalities_tower run'
  have looks := ((objectwise v w (.inl (.inr rfl)) (.inr rfl)).2.1 same).2.1
  exact ⟨_, t, v, w, run', .inl (.inr rfl), .inr rfl, by simpa using different, same, looks,
    (operators v w t.objects t.objects).2.1⟩

end Monkey
