import Mathlib.Data.List.Nodup
import Monkey.HashTable

namespace Monkey

namespace HashTable

variable {α : Type} {inserts : List (HashKey × α × α)} {t : HashTable α} {g h : HashKey} {entry : α × α} {i : Nat}

/-- Puts in the entries, each by the hash key before it. -/
def insertAll (t : HashTable α) (inserts : List (HashKey × α × α)) : HashTable α :=
  inserts.foldl (fun t insert => t.insert insert.1 insert.2.1 insert.2.2) t

/-- The hash keys of the inserts in the order of first insertion. -/
def hashKeys (inserts : List (HashKey × α × α)) : List HashKey := (inserts.map (·.1)).eraseDups

/-- The entry that was last put in by the hash key. -/
def lastInsert? (inserts : List (HashKey × α × α)) (h : HashKey) : Option (α × α) :=
  (inserts.reverse.find? (·.1 == h)).map (·.2)

theorem mem_hashKeys : h ∈ hashKeys inserts ↔ h ∈ inserts.map (·.1) := List.mem_eraseDups

theorem hashKeys_concat_of_mem (old : h ∈ hashKeys inserts) :
    hashKeys (inserts ++ [(h, entry)]) = hashKeys inserts := by
  have old : h ∈ inserts.map (·.1) := mem_hashKeys.1 old
  simp [hashKeys, List.eraseDups_append, List.removeAll, old]

theorem hashKeys_concat_of_not_mem (new : h ∉ hashKeys inserts) :
    hashKeys (inserts ++ [(h, entry)]) = hashKeys inserts ++ [h] := by
  have new : h ∉ inserts.map (·.1) := mt mem_hashKeys.2 new
  simp [hashKeys, List.eraseDups_append, List.removeAll, List.eraseDups_cons, new]

theorem lastInsert?_concat_self : lastInsert? (inserts ++ [(h, entry)]) h = some entry := by
  simp [lastInsert?]

theorem lastInsert?_concat_of_ne (other : g ≠ h) :
    lastInsert? (inserts ++ [(h, entry)]) g = lastInsert? inserts g := by
  simp [lastInsert?, other.symm]

theorem lastInsert?_eq_none_iff : lastInsert? inserts h = none ↔ h ∉ inserts.map (·.1) := by
  simp [lastInsert?]
  grind

/-- The slots number the hash keys of the inserts. At the number of a hash key stands the entry last put in by it. -/
structure Records (inserts : List (HashKey × α × α)) (t : HashTable α) : Prop where
  slots : ∀ (h : HashKey) (i : Nat), t.slots[h]? = some i ↔ (hashKeys inserts)[i]? = some h
  entries : ∀ i : Nat, t.entries[i]?.map some = (hashKeys inserts)[i]?.map (lastInsert? inserts)

theorem records_empty : Records [] ({} : HashTable α) where
  slots h i := by simp [hashKeys]
  entries i := by simp [hashKeys]

namespace Records

theorem toList_map (r : Records inserts t) : t.toList.map some = (hashKeys inserts).map (lastInsert? inserts) := by
  refine List.ext_getElem? fun i => ?_
  simpa [toList] using r.entries i

theorem size_eq (r : Records inserts t) : t.entries.size = (hashKeys inserts).length := by
  simpa [toList] using congrArg List.length r.toList_map

theorem number_unique (r : Records inserts t) {j : Nat} (first : (hashKeys inserts)[i]? = some h)
    (second : (hashKeys inserts)[j]? = some h) : i = j :=
  Option.some.inj (((r.slots h i).2 first).symm.trans ((r.slots h j).2 second))

theorem nodup (r : Records inserts t) : (hashKeys inserts).Nodup := by
  refine List.nodup_iff_getElem?_ne_getElem?.2 fun i j before within same => ?_
  have last := List.getElem?_eq_getElem within
  exact Nat.ne_of_lt before (r.number_unique (same.trans last) last)

theorem slot_lt (r : Records inserts t) (found : t.slots[h]? = some i) : i < t.entries.size := by
  obtain ⟨within, _⟩ := List.getElem?_eq_some_iff.1 ((r.slots h i).1 found)
  exact r.size_eq ▸ within

theorem not_mem_hashKeys (r : Records inserts t) (absent : t.slots[h]? = none) : h ∉ hashKeys inserts := by
  intro old
  obtain ⟨i, place⟩ := List.mem_iff_getElem?.1 old
  rw [(r.slots h i).2 place] at absent
  cases absent

theorem find?_eq (r : Records inserts t) (h : HashKey) : t.find? h = lastInsert? inserts h := by
  unfold find?
  cases found : t.slots[h]? with
  | none => exact (lastInsert?_eq_none_iff.2 (mt mem_hashKeys.2 (r.not_mem_hashKeys found))).symm
  | some i =>
    have there := r.entries i
    rw [(r.slots h i).1 found] at there
    obtain ⟨entry, there, same⟩ := Option.map_eq_some_iff.1 there
    exact there.trans same

/-- An entry put in by a hash key that is there takes the place of the one before. -/
theorem overwrite (r : Records inserts t) (found : t.slots[h]? = some i) :
    Records (inserts ++ [(h, entry)]) { t with entries := t.entries.setIfInBounds i entry } := by
  have number := (r.slots h i).1 found
  have keys : hashKeys (inserts ++ [(h, entry)]) = hashKeys inserts :=
    hashKeys_concat_of_mem (List.mem_of_getElem? number)
  refine ⟨by rw [keys]; exact r.slots, fun j => ?_⟩
  dsimp only
  rw [keys, Array.getElem?_setIfInBounds]
  split
  · next same =>
    rw [← same, number, if_pos (r.slot_lt found), Option.map_some, Option.map_some, lastInsert?_concat_self]
  · next elsewhere =>
    rw [r.entries j]
    refine Option.map_congr fun g there => (lastInsert?_concat_of_ne ?_).symm
    rintro rfl
    exact elsewhere (r.number_unique number there)

/-- An entry put in by a new hash key comes last. -/
theorem extend (r : Records inserts t) (absent : t.slots[h]? = none) :
    Records (inserts ++ [(h, entry)])
      { entries := t.entries.push entry, slots := t.slots.insert h t.entries.size } := by
  have new := r.not_mem_hashKeys absent
  have keys (j : Nat) : (hashKeys (inserts ++ [(h, entry)]))[j]? =
      if j = t.entries.size then some h else (hashKeys inserts)[j]? := by
    rw [hashKeys_concat_of_not_mem new, r.size_eq]
    grind
  refine ⟨fun g j => ?_, fun j => ?_⟩
  · dsimp only
    rw [keys, Std.HashMap.getElem?_insert]
    have old := r.slots g j
    have within := r.slot_lt (h := g) (i := j)
    have unseen : (hashKeys inserts)[j]? ≠ some h := fun there => new (List.mem_of_getElem? there)
    grind
  · dsimp only
    rw [keys, Array.getElem?_push]
    split
    · rw [Option.map_some, Option.map_some, lastInsert?_concat_self]
    · rw [r.entries j]
      refine Option.map_congr fun g there => (lastInsert?_concat_of_ne ?_).symm
      rintro rfl
      exact new (List.mem_of_getElem? there)

theorem insert (r : Records inserts t) : Records (inserts ++ [(h, entry)]) (t.insert h entry.1 entry.2) := by
  unfold HashTable.insert
  split
  · next i found => exact r.overwrite found
  · next absent => exact r.extend absent

theorem insertAll {before : List (HashKey × α × α)} (r : Records before t) (inserts : List (HashKey × α × α)) :
    Records (before ++ inserts) (t.insertAll inserts) := by
  induction inserts generalizing before t with
  | nil =>
    rw [List.append_nil]
    exact r
  | cons first rest ih =>
    rw [List.append_cons]
    exact ih r.insert

end Records

/-- The table is the ordered map of the inserts. -/
structure Ordered (inserts : List (HashKey × α × α)) (t : HashTable α) : Prop where
  /-- For each hash key there is one entry, in order of first insertion, and it is the one last put in. -/
  entries : t.toList.map some = (hashKeys inserts).map (lastInsert? inserts)
  distinct : (hashKeys inserts).Nodup
  size : t.size = (hashKeys inserts).length
  /-- What is found by a hash key is the entry last put in by it. -/
  find : ∀ h, t.find? h = lastInsert? inserts h
  absent : ∀ h, t.find? h = none ↔ h ∉ inserts.map (·.1)
  /-- The hash keys put in are the ones that have a slot. -/
  slot_iff : ∀ h, h ∈ t.slots ↔ h ∈ inserts.map (·.1)
  slot_lt : ∀ (h : HashKey) (i : Nat), t.slots[h]? = some i → i < t.entries.size
  slot_injective : ∀ (g h : HashKey) (i : Nat), t.slots[g]? = some i → t.slots[h]? = some i → g = h
  slot_surjective : ∀ i < t.size, ∃ h : HashKey, t.slots[h]? = some i

theorem Records.ordered (r : Records inserts t) : Ordered inserts t where
  entries := r.toList_map
  distinct := r.nodup
  size := r.size_eq
  find := r.find?_eq
  absent h := by rw [r.find?_eq, lastInsert?_eq_none_iff]
  slot_iff h := by
    rw [← mem_hashKeys, List.mem_iff_getElem?, Std.HashMap.mem_iff_isSome_getElem?, Option.isSome_iff_exists]
    exact exists_congr (r.slots h)
  slot_lt h i := r.slot_lt
  slot_injective g h i first second := Option.some.inj (((r.slots g i).1 first).symm.trans ((r.slots h i).1 second))
  slot_surjective i within :=
    ⟨_, (r.slots _ i).2 (List.getElem?_eq_getElem (r.size_eq ▸ within))⟩

/-- A table filled from the empty one is the ordered map of its inserts. -/
theorem ordered_insertAll (inserts : List (HashKey × α × α)) : Ordered inserts (insertAll {} inserts) :=
  (records_empty.insertAll inserts).ordered

/-- A key that is put in again keeps its place. -/
example :
    (insertAll {} [(.int 1, "1", "first"), (.int 2, "2", "second"), (.int 1, "1", "third")]).toList =
      [("1", "third"), ("2", "second")] := by cbv

end HashTable

end Monkey
