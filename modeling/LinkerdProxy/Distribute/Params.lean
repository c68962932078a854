import Mathlib
import LinkerdProxy.Lib.Except

/-!
# Distributions over backends

`distribute::Distribution`: no backend, backends tried in order, or backends drawn at random by
weight.  `Distribution::random_available` keeps fewer than two keys in order, whatever their
weights, and checks the weights of more with `rand`'s `WeightedIndex::new`.

* `weighted_index_new_isOk_iff` — a `WeightedIndex` is built exactly when the weights sum to a
  positive `u32`;
* `random_available_isOk_iff` — `Distribution::random_available` refuses two or more keys whose
  weights sum to 0 or past `u32::MAX`.
-/

namespace LinkerdProxy.Distribute

/-- `distribute::Distribution` over keys `K`. -/
inductive Distribution (K : Type) where
  | empty
  | firstAvailable (keys : List K)
  | randomAvailable (keys : List (K × Nat))
  deriving DecidableEq, Repr

variable {K : Type}

/-- `Distribution::first_available`: empty without keys. -/
def Distribution.first_available (keys : List K) : Distribution K :=
  if keys.isEmpty then .empty else .firstAvailable keys

/-- `rand::distr::weighted::Error`. -/
inductive WeightedError where
  | invalidInput
  | invalidWeight
  | insufficientNonZero
  | overflow
  deriving DecidableEq, Repr

def U32_MAX : Nat := 4294967295

/-- `WeightedIndex::new` over `u32` weights, as `rand` 0.9 documents it (the crate is not part
    of the sources): no weights is invalid input, a total past `u32::MAX` overflows, and a zero
    total leaves nothing to pick. -/
def weightedIndexNew (weights : List Nat) : Except WeightedError Unit :=
  match weights with
  | [] => .error .invalidInput
  | _ =>
    if weights.sum > U32_MAX then .error .overflow
    else if weights.sum = 0 then .error .insufficientNonZero
    else .ok ()

/-- `Distribution::random_available`: fewer than two keys are picked in order, whatever their
    weights; more must have weights a `WeightedIndex` accepts. -/
def Distribution.random_available (keys : List (K × Nat)) :
    Except WeightedError (Distribution K) :=
  if keys.length < 2 then .ok (.firstAvailable (keys.map Prod.fst))
  else do
    weightedIndexNew (keys.map Prod.snd)
    pure (.randomAvailable keys)

theorem weighted_index_new_isOk_iff (weights : List Nat) :
    (weightedIndexNew weights).isOk = true ↔ 0 < weights.sum ∧ weights.sum ≤ U32_MAX := by
  unfold weightedIndexNew
  split
  · simp
  · split
    · simp only [except_isOk_error, Bool.false_eq_true, false_iff, not_and, not_le]
      intro _
      omega
    · split <;> simp <;> omega

/-- The weights of two or more keys must sum to a positive `u32`. -/
theorem random_available_isOk_iff (keys : List (K × Nat)) :
    (Distribution.random_available keys).isOk = true ↔
      keys.length < 2 ∨ (0 < (keys.map Prod.snd).sum ∧ (keys.map Prod.snd).sum ≤ U32_MAX) := by
  unfold Distribution.random_available
  split
  · simp [*]
  · rename_i hlen
    rw [← weighted_index_new_isOk_iff]
    cases weightedIndexNew (keys.map Prod.snd) <;> simp [hlen]

end LinkerdProxy.Distribute
