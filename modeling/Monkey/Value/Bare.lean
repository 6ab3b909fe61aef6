import Monkey.Builtin
import Monkey.Operator
import Monkey.Syntax.Bare

namespace Monkey

def Function.bare (f : Function) : Function where
  source := f.source
  parameters := f.parameters.map Identifier.bare
  body := f.body.bare
  place := f.place.bare

def Closure.bare (c : Closure) : Closure := ⟨c.function.bare, c.scope⟩

namespace Value

mutual

def bare : Value → Value
  | .int n => .int n
  | .str id text => .str id text
  | .bool b => .bool b
  | .null => .null
  | .ret id v => .ret id v.bare
  | .error id message => .error id message
  | .function c => .function c.bare
  | .builtin b => .builtin b
  | .array id vs => .array id (bareElements vs)
  | .hash id t => .hash id (bareTable t)

def bareElements : List Value → List Value
  | [] => []
  | v :: vs => v.bare :: bareElements vs

def bareTable : HashTable Value → HashTable Value
  | ⟨⟨ps⟩, slots⟩ => ⟨⟨bareEntries ps⟩, slots⟩

def bareEntries : List (Value × Value) → List (Value × Value)
  | [] => []
  | (k, v) :: ps => (k.bare, v.bare) :: bareEntries ps

end

/-- The entry of a hash with both parts bare. -/
def bareEntry (p : Value × Value) : Value × Value := (p.1.bare, p.2.bare)

theorem bareElements_eq_map (vs : List Value) : bareElements vs = vs.map bare := by
  induction vs with
  | nil => rfl
  | cons v vs ih => rw [bareElements, ih, List.map_cons]

theorem bareEntries_eq_map (ps : List (Value × Value)) : bareEntries ps = ps.map bareEntry := by
  induction ps with
  | nil => rfl
  | cons p ps ih => rw [bareEntries, ih, List.map_cons, bareEntry]

theorem bareTable_eq (t : HashTable Value) : bareTable t = ⟨t.entries.map bareEntry, t.slots⟩ := by
  obtain ⟨⟨ps⟩, slots⟩ := t
  rw [bareTable, bareEntries_eq_map, List.map_toArray]

end Value

def HashTable.bare (t : HashTable Value) : HashTable Value := ⟨t.entries.map Value.bareEntry, t.slots⟩

namespace Value

@[simp] theorem bare_function (c : Closure) : (function c).bare = .function c.bare := by rw [bare]

@[simp] theorem bare_array (id : Identity) (vs : List Value) : (array id vs).bare = .array id (vs.map bare) := by
  rw [bare, bareElements_eq_map]

@[simp] theorem bare_hash (id : Identity) (t : HashTable Value) : (hash id t).bare = .hash id t.bare := by
  rw [bare, bareTable_eq, HashTable.bare]

end Value

theorem Function.render_bare (f : Function) : f.bare.render = f.render := by
  rw [render, render]
  exact Expr.render_mapSpans (fun _ => .origin) id (.function f.parameters f.body f.place)

namespace Value

mutual

theorem inspect_bare : (v : Value) → v.bare.inspect = v.inspect
  | .int _ | .str .. | .bool true | .bool false | .null | .error .. | .builtin _ => by simp [bare, inspect]
  | .ret _ v => by simp [bare, inspect, v.inspect_bare]
  | .function c => by
    rw [bare_function, inspect, inspect]
    exact c.function.render_bare
  | .array _ vs => by rw [bare, inspect, inspect, inspectElements_bare vs]
  | .hash _ t => by rw [bare, inspect, inspect, inspectTable_bare t]

theorem inspectElements_bare : (vs : List Value) → inspectElements (bareElements vs) = inspectElements vs
  | [] => rfl
  | v :: vs => by simp only [bareElements, inspectElements, v.inspect_bare, inspectElementsRest_bare vs]

theorem inspectElementsRest_bare : (vs : List Value) → inspectElementsRest (bareElements vs) = inspectElementsRest vs
  | [] => rfl
  | v :: vs => by simp only [bareElements, inspectElementsRest, v.inspect_bare, inspectElementsRest_bare vs]

theorem inspectTable_bare : (t : HashTable Value) → inspectTable (bareTable t) = inspectTable t
  | ⟨⟨ps⟩, _⟩ => by simp only [bareTable, inspectTable, inspectEntries_bare ps]

theorem inspectEntries_bare : (ps : List (Value × Value)) → inspectEntries (bareEntries ps) = inspectEntries ps
  | [] => rfl
  | (k, v) :: ps => by
    simp only [bareEntries, inspectEntries, k.inspect_bare, v.inspect_bare, inspectEntriesRest_bare ps]

theorem inspectEntriesRest_bare :
    (ps : List (Value × Value)) → inspectEntriesRest (bareEntries ps) = inspectEntriesRest ps
  | [] => rfl
  | (k, v) :: ps => by
    simp only [bareEntries, inspectEntriesRest, k.inspect_bare, v.inspect_bare, inspectEntriesRest_bare ps]

end

mutual

theorem addScopes_bare (found : List ScopeId) : (v : Value) → v.bare.addScopes found = v.addScopes found
  | .int _ | .str .. | .bool _ | .null | .error .. | .builtin _ => by simp only [bare]
  | .ret _ v => by rw [bare, addScopes, addScopes, addScopes_bare found v]
  | .function c => by rw [bare_function, addScopes, addScopes, Closure.bare]
  | .array _ vs => by rw [bare, addScopes, addScopes, addElementScopes_bare found vs]
  | .hash _ t => by rw [bare, addScopes, addScopes, addTableScopes_bare found t]

theorem addElementScopes_bare (found : List ScopeId) :
    (vs : List Value) → addElementScopes found (bareElements vs) = addElementScopes found vs
  | [] => rfl
  | v :: vs => by
    rw [bareElements, addElementScopes, addElementScopes, addScopes_bare found v, addElementScopes_bare _ vs]

theorem addTableScopes_bare (found : List ScopeId) :
    (t : HashTable Value) → addTableScopes found (bareTable t) = addTableScopes found t
  | ⟨⟨ps⟩, _⟩ => by rw [bareTable, addTableScopes, addTableScopes, addEntryScopes_bare found ps]

theorem addEntryScopes_bare (found : List ScopeId) :
    (ps : List (Value × Value)) → addEntryScopes found (bareEntries ps) = addEntryScopes found ps
  | [] => rfl
  | (_, v) :: ps => by
    rw [bareEntries, addEntryScopes, addEntryScopes, addScopes_bare found v, addEntryScopes_bare _ ps]

end

variable (v w : Value)

/-- A bare value has the closures of the value, over the same scopes. -/
@[simp] theorem scopes_bare : v.bare.scopes = v.scopes := v.addScopes_bare []

@[simp] theorem kind_bare : v.bare.kind = v.kind := by
  cases v <;> rw [bare] <;> rfl

@[simp] theorem isTruthy_bare : v.bare.isTruthy = v.isTruthy := by
  cases v <;> rw [bare] <;> rfl

@[simp] theorem hashKey?_bare : v.bare.hashKey? = v.hashKey? := by
  cases v <;> rw [bare] <;> rfl

theorem getD_bare (v : Option Value) : (v.map bare).getD .null = (v.getD .null).bare := by
  cases v <;> rfl

/-- Function literals are told apart by their source and number, so a span has no part in it. -/
@[simp] theorem identical_bare : v.bare.identical w.bare = v.identical w := by
  cases v <;> cases w <;> simp only [bare] <;> rfl

end Value

namespace HashTable

variable (t : HashTable Value) (h : HashKey)

@[simp] theorem bare_empty : bare {} = {} := by simp [bare]

@[simp] theorem find?_bare : t.bare.find? h = (t.find? h).map Value.bareEntry := by
  unfold find? bare
  dsimp only
  cases t.slots[h]? with
  | none => rfl
  | some slot => exact Array.getElem?_map

@[simp] theorem bare_insert (key value : Value) :
    (t.insert h key value).bare = t.bare.insert h key.bare value.bare := by
  unfold insert bare
  dsimp only
  cases t.slots[h]? with
  | none => simp [Value.bareEntry]
  | some slot => simp [Array.map_setIfInBounds, Value.bareEntry]

end HashTable

section Operations

theorem checkedInt_bare (operation : String) (n : Int) :
    (checkedInt operation n).map Value.bare = checkedInt operation n := by
  unfold checkedInt
  split <;> simp [Except.map, Value.bare]

theorem applyToInts_bare (op : BinaryOp) (m n : Int64) : (applyToInts op m n).map Value.bare = applyToInts op m n := by
  unfold applyToInts
  split
  · exact checkedInt_bare _ _
  · exact checkedInt_bare _ _
  · exact checkedInt_bare _ _
  · split
    · rfl
    · exact checkedInt_bare _ _
  all_goals simp [Except.map, Value.bare]

theorem UnaryOp.apply_bare (op : UnaryOp) (v : Value) : op.apply v.bare = (op.apply v).map Value.bare := by
  cases op with
  | not => simp [UnaryOp.apply, Except.map, Value.bare]
  | neg => cases v <;> simp only [UnaryOp.apply, Value.bare, checkedInt_bare] <;> rfl

theorem BinaryOp.apply_bare (op : BinaryOp) (fresh : Identity) (left right : Value) :
    op.apply fresh left.bare right.bare = (op.apply fresh left right).map Value.bare := by
  have others (notInts : ∀ k l, left = .int k → right = .int l → False)
      (notStrings : ∀ i s j t, left = .str i s → right = .str j t → False)
      (notInts' : ∀ k l, left.bare = .int k → right.bare = .int l → False)
      (notStrings' : ∀ i s j t, left.bare = .str i s → right.bare = .str j t → False) :
      op.apply fresh left.bare right.bare = (op.apply fresh left right).map Value.bare := by
    rw [op.apply_of_others fresh notInts notStrings, op.apply_of_others fresh notInts' notStrings', left.identical_bare,
      left.kind_bare, right.kind_bare]
    split
    · simp [Except.map, Value.bare]
    · split
      · simp [Except.map, Value.bare]
      · split <;> rfl
  cases left with
  | int m => cases right with
    | int n => exact (applyToInts_bare op m n).symm
    | _ => exact others nofun nofun nofun nofun
  | str _ s => cases right with
    | str _ t => cases op <;> rfl
    | _ => exact others nofun nofun nofun nofun
  | _ => exact others nofun nofun nofun nofun

namespace Builtin

variable (b : Builtin) (vs : List Value)

theorem withArray_bare {f : List Value → Value} (commutes : ∀ vs, f (vs.map Value.bare) = (f vs).bare) :
    b.withArray (vs.map Value.bare) f = (b.withArray vs f).map Value.bare := by
  rcases vs with _ | ⟨v, _ | ⟨w, vs⟩⟩
  · rfl
  · cases v <;> simp [withArray, commutes, Value.bare, Value.bareElements_eq_map, Except.map, Value.kind]
  · simp [withArray, Except.map]

theorem result_bare (fresh : Identity) : b.result fresh (vs.map Value.bare) = (b.result fresh vs).map Value.bare := by
  cases b with
  | len =>
    rcases vs with _ | ⟨v, _ | ⟨w, vs⟩⟩
    · rfl
    · cases v <;> simp [result, Value.bare, Value.bareElements_eq_map, Except.map, Value.kind]
    · simp [result, Except.map]
  | puts => rfl
  | first =>
    refine withArray_bare .first vs fun vs => ?_
    rw [List.head?_map, Value.getD_bare]
  | last =>
    refine withArray_bare .last vs fun vs => ?_
    rw [List.getLast?_map, Value.getD_bare]
  | rest =>
    refine withArray_bare .rest vs fun vs => ?_
    cases vs with
    | nil => rfl
    | cons v vs => exact (Value.bare_array fresh vs).symm
  | push =>
    rcases vs with _ | ⟨v, _ | ⟨w, _ | ⟨u, vs⟩⟩⟩
    · rfl
    · simp [result, Except.map]
    · cases v <;> simp [result, Value.bare, Value.bareElements_eq_map, Except.map, Value.kind]
    · simp [result, Except.map]

theorem print_bare (printer : Printer) : b.print (vs.map Value.bare) printer = b.print vs printer := by
  cases b with
  | puts => simp only [print, List.foldl_map, Value.inspect_bare]
  | _ => rfl

end Builtin

end Operations

end Monkey
