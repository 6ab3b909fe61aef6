import Std.Data.HashMap

namespace Monkey

/-- What makes two keys of a hash the same: the kind and the content. -/
inductive HashKey where
  | int (n : Int64)
  | bool (b : Bool)
  | str (s : String)
  deriving DecidableEq, Hashable

/-- Entries in the order of first insertion, and the place of each hash key among them. -/
structure HashTable (α : Type) where
  entries : Array (α × α) := #[]
  slots : Std.HashMap HashKey Nat := {}

namespace HashTable

variable {α : Type}

instance : Inhabited (HashTable α) := ⟨{}⟩

def size (t : HashTable α) : Nat := t.entries.size

def isEmpty (t : HashTable α) : Bool := t.entries.isEmpty

/-- The entries in order. -/
def toList (t : HashTable α) : List (α × α) := t.entries.toList

def find? (t : HashTable α) (h : HashKey) : Option (α × α) := t.slots[h]?.bind (t.entries[·]?)

/-- A hash key that is there keeps its place and gets the new entry. -/
def insert (t : HashTable α) (h : HashKey) (key value : α) : HashTable α :=
  match t.slots[h]? with
  | some slot => { t with entries := t.entries.setIfInBounds slot (key, value) }
  | none => { entries := t.entries.push (key, value), slots := t.slots.insert h t.entries.size }

end HashTable

end Monkey
