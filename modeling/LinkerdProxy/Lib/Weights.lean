import Mathlib

namespace LinkerdProxy

/-!
# Choosing by weight

Natural-number weights on the positions of a list, as a weighted random choice holds them.  A
position of non-zero weight is one that can be chosen; a choice is the first position whose
running total passes a value drawn below the total (`partition_point` over the running totals);
and a position is excluded from later choices by setting its weight to zero.

* `pick_pos` — a value below the total picks a position of non-zero weight;
* `getD_set_zero` — zeroing one position leaves every other weight as it was;
* `countP_set_zero` — zeroing a position of non-zero weight takes one from the number of such
  positions;
* `getD_le_sum` — no weight exceeds the total, so a zero total leaves no position to choose.
-/

namespace Weights

/-- The first position whose running total passes `x`: the index `partition_point` finds among
    the running totals of the weights. -/
def pick : List Nat → Nat → Nat
  | [], _ => 0
  | w :: ws, x => if x < w then 0 else pick ws (x - w) + 1

/-- **Choosing by weight.**  A value below the total lands on a position of non-zero weight. -/
theorem pick_pos : ∀ {ws : List Nat} {x : Nat}, x < ws.sum → 0 < ws.getD (pick ws x) 0
  | [], _, h => absurd h (Nat.not_lt_zero _)
  | w :: ws, x, h => by
    by_cases hx : x < w
    · simp only [pick, if_pos hx, List.getD_cons_zero]
      omega
    · -- past the first weight: what is left of the value lies below the rest of the total
      have hrest : x - w < ws.sum := by
        rw [List.sum_cons] at h
        omega
      simpa only [pick, if_neg hx, List.getD_cons_succ] using pick_pos hrest

theorem getD_set_zero (ws : List Nat) (i j : Nat) :
    (ws.set i 0).getD j 0 = if i = j then 0 else ws.getD j 0 := by
  simp only [List.getD_eq_getElem?_getD, List.getElem?_set]
  split_ifs <;> simp

theorem getD_le_sum : ∀ (ws : List Nat) (j : Nat), ws.getD j 0 ≤ ws.sum
  | [], _ => Nat.zero_le _
  | w :: ws, 0 => by simp
  | w :: ws, j + 1 => by
    simp only [List.getD_cons_succ, List.sum_cons]
    have := getD_le_sum ws j
    omega

/-- A zero total leaves no position of non-zero weight. -/
theorem getD_eq_zero_of_sum {ws : List Nat} (h : ws.sum = 0) (j : Nat) : ws.getD j 0 = 0 :=
  Nat.eq_zero_of_le_zero (h ▸ getD_le_sum ws j)

theorem lt_length_of_pos {ws : List Nat} {i : Nat} (h : 0 < ws.getD i 0) : i < ws.length := by
  by_contra hi
  rw [List.getD_eq_getElem?_getD, List.getElem?_eq_none (Nat.le_of_not_lt hi)] at h
  exact Nat.lt_irrefl 0 h

/-- **Exclusion.**  Zeroing a position of non-zero weight takes exactly one from the number of
    positions of non-zero weight. -/
theorem countP_set_zero {ws : List Nat} {i : Nat} (h : 0 < ws.getD i 0) :
    (ws.set i 0).countP (0 < ·) + 1 = ws.countP (0 < ·) := by
  have hi := lt_length_of_pos h
  have hw : 0 < ws[i] := by
    rwa [List.getD_eq_getElem?_getD, List.getElem?_eq_getElem hi, Option.getD_some] at h
  have hle : 1 ≤ ws.countP (0 < ·) :=
    List.countP_pos_iff.mpr ⟨ws[i], List.getElem_mem hi, by simpa using hw⟩
  rw [List.countP_set hi]
  simp only [hw, decide_true, if_true, Nat.lt_irrefl, decide_false, Bool.false_eq_true,
    if_false]
  omega

end Weights

end LinkerdProxy
