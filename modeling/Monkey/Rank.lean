namespace Monkey

/-- Narrows down the rank of `bound` from what lies between `low` and `high`. -/
def rankBetween (xs : Array Nat) (bound : Nat) : (fuel low high : Nat) → Nat
  | 0, low, _ => low
  | fuel + 1, low, high =>
    if low < high then
      let middle := (low + high) / 2
      if xs.getD middle 0 ≤ bound then rankBetween xs bound fuel (middle + 1) high
      else rankBetween xs bound fuel low middle
    else low

/-- The number of entries up to `bound`, if the entries ascend. -/
def rank (xs : Array Nat) (bound : Nat) : Nat := rankBetween xs bound xs.size 0 xs.size

/-- The entries before `r` are up to `bound`, and those from there on are beyond it. -/
def IsRank (xs : Array Nat) (bound r : Nat) : Prop :=
  (∀ (i : Nat) (h : i < xs.size), i < r → xs[i] ≤ bound) ∧
    ∀ (i : Nat) (h : i < xs.size), r ≤ i → bound < xs[i]

theorem getElem_le_of_ascending {xs : Array Nat} (ascending : xs.toList.Pairwise (· ≤ ·)) {i j : Nat}
    (hj : j < xs.size) (le : i ≤ j) : xs[i] ≤ xs[j] := by
  rcases Nat.lt_or_eq_of_le le with lt | rfl
  · exact List.pairwise_iff_getElem.1 ascending i j (Nat.lt_trans lt hj) hj lt
  · exact Nat.le_refl _

theorem isRank_rankBetween {xs : Array Nat} {bound : Nat} (ascending : xs.toList.Pairwise (· ≤ ·))
    {fuel low high : Nat} (ordered : low ≤ high) (within : high ≤ xs.size) (enough : high - low ≤ fuel)
    (before : ∀ (i : Nat) (h : i < xs.size), i < low → xs[i] ≤ bound)
    (after : ∀ (i : Nat) (h : i < xs.size), high ≤ i → bound < xs[i]) :
    rankBetween xs bound fuel low high ≤ xs.size ∧ IsRank xs bound (rankBetween xs bound fuel low high) := by
  induction fuel generalizing low high with
  | zero =>
    obtain rfl : low = high := by omega
    exact ⟨within, before, after⟩
  | succ fuel ih =>
    unfold rankBetween
    split
    · next more =>
      have inside : (low + high) / 2 < xs.size := by omega
      simp only [Array.getD_eq_getD_getElem?, Array.getElem?_eq_getElem inside, Option.getD_some]
      split
      · next small =>
        refine ih (by omega) within (by omega) (fun i _ lt => ?_) after
        exact Nat.le_trans (getElem_le_of_ascending ascending inside (by omega)) small
      · next large =>
        refine ih (by omega) (by omega) (by omega) before fun i h ge => ?_
        exact Nat.lt_of_lt_of_le (Nat.lt_of_not_le large) (getElem_le_of_ascending ascending h ge)
    · obtain rfl : low = high := by omega
      exact ⟨within, before, after⟩

theorem IsRank.eq_countP {xs : Array Nat} {bound r : Nat} (le : r ≤ xs.size) (isRank : IsRank xs bound r) :
    r = xs.countP (· ≤ bound) := by
  rw [← Array.countP_toList, ← List.take_append_drop r xs.toList, List.countP_append,
    List.countP_eq_length.2, List.countP_eq_zero.2]
  · simp [Nat.min_eq_left le]
  · intro n mem
    obtain ⟨i, h, rfl⟩ := List.mem_iff_getElem.1 mem
    simp only [List.length_drop, Array.length_toList] at h
    have := isRank.2 (r + i) (by omega) (by omega)
    simpa using this
  · intro n mem
    obtain ⟨i, h, rfl⟩ := List.mem_iff_getElem.1 mem
    simp only [List.length_take, Array.length_toList] at h
    have := isRank.1 i (by omega) (by omega)
    simpa using this

/-- The rank counts the entries up to the bound. -/
theorem rank_eq_countP {xs : Array Nat} {bound : Nat} (ascending : xs.toList.Pairwise (· ≤ ·)) :
    rank xs bound = xs.countP (· ≤ bound) :=
  have found := isRank_rankBetween ascending (Nat.zero_le _) (Nat.le_refl _) (Nat.le_refl _)
    (fun _ _ lt => absurd lt (Nat.not_lt_zero _)) fun _ h ge => absurd h (Nat.not_lt.2 ge)
  found.2.eq_countP found.1

end Monkey
