import Mathlib.Data.List.Forall2

namespace Monkey

theorem exists_related {α β : Type} {R : α → β → Prop} {as : List α} {bs : List β} (h : List.Forall₂ R as bs) {a : α}
    (mem : a ∈ as) : ∃ b ∈ bs, R a b := by
  induction h with
  | nil => cases mem
  | cons first _ ih =>
    rcases List.mem_cons.1 mem with rfl | mem
    · exact ⟨_, .head _, first⟩
    · obtain ⟨b, mem, related⟩ := ih mem
      exact ⟨b, .tail _ mem, related⟩

theorem getElem?_related {α β : Type} {R : α → β → Prop} {as : List α} {bs : List β} (h : List.Forall₂ R as bs)
    (i : Nat) : Option.Rel R as[i]? bs[i]? := by
  induction h generalizing i with
  | nil => exact .none
  | cons first _ ih => cases i with
    | zero => exact .some first
    | succ i => exact ih i

theorem exists_eq_some {α β : Type} {R : α → β → Prop} {a : α} {o : Option β} (h : Option.Rel R (some a) o) :
    ∃ b, o = some b ∧ R a b := by
  cases h with
  | some related => exact ⟨_, rfl, related⟩

theorem exists_some_eq {α β : Type} {R : α → β → Prop} {o : Option α} {b : β} (h : Option.Rel R o (some b)) :
    ∃ a, o = some a ∧ R a b := by
  cases h with
  | some related => exact ⟨_, rfl, related⟩

theorem getD_related {α β : Type} {R : α → β → Prop} {a : Option α} {b : Option β} {d : α} {d' : β}
    (h : Option.Rel R a b) (default : R d d') : R (a.getD d) (b.getD d') := by
  cases h with
  | none => exact default
  | some related => exact related

theorem optionRel_imp {α β : Type} {R S : α → β → Prop} {a : Option α} {b : Option β}
    (imp : ∀ a b, R a b → S a b) (h : Option.Rel R a b) : Option.Rel S a b := by
  cases h with
  | none => exact .none
  | some related => exact .some (imp _ _ related)

theorem set_related {α β : Type} {R : α → β → Prop} {as : List α} {bs : List β} {a : α} {b : β}
    (h : List.Forall₂ R as bs) (i : Nat) (new : R a b) : List.Forall₂ R (as.set i a) (bs.set i b) := by
  induction h generalizing i with
  | nil => exact .nil
  | cons first rest ih => cases i with
    | zero => exact .cons new rest
    | succ i => exact .cons first (ih i)

end Monkey
