import Mathlib.Data.List.Basic
import Mathlib.Data.Option.Basic

namespace LinkerdProxy

/-!
# First and last maxima of a list under a total preorder

Selection by "the best" element of a list, where elements are compared by a key under a total
preorder (`Std.TransOrd`: ties between different keys are allowed).  Two conventions occur:

* `firstMax` keeps the earlier element on a tie (a `reduce` with `if m0 >= m1 { m0 } else { m1 }`);
* `lastMax` keeps the later one (the standard library's `Iterator::max`).

The main results:

* `firstMax_append` / `firstMax_flatten` — `firstMax` is a homomorphism from concatenation to
  `keepFirst`, so the first maximum of the first maxima of blocks is the first maximum of the
  concatenated blocks;
* `firstMax_map` — maps that preserve comparisons commute with `firstMax`;
* `firstMax_eq_some_iff` — the first maximum is the element that no element exceeds and that
  every earlier element is strictly below.
-/

variable {κ κ' β β' : Type*} [Ord κ] [Ord κ']

/-- Keep the earlier of two keyed values unless the later key is strictly greater. -/
def keepFirst (a b : κ × β) : κ × β := if compare a.1 b.1 = .lt then b else a

/-- The first element with a greatest key (`Iterator::reduce` keeping the earlier on ties). -/
def firstMax : List (κ × β) → Option (κ × β)
  | [] => none
  | x :: xs => some (xs.foldl keepFirst x)

/-- Keep the later of two values unless the earlier is strictly greater (`cmp::max_by`). -/
def keepLast (a b : κ) : κ := if compare a b = .gt then a else b

/-- The last greatest element (`Iterator::max`). -/
def lastMax : List κ → Option κ
  | [] => none
  | x :: xs => some (xs.foldl keepLast x)

@[simp] theorem firstMax_nil : firstMax ([] : List (κ × β)) = none := rfl

@[simp] theorem firstMax_eq_none {l : List (κ × β)} : firstMax l = none ↔ l = [] := by
  cases l <;> simp [firstMax]

@[simp] theorem lastMax_eq_none {l : List κ} : lastMax l = none ↔ l = [] := by
  cases l <;> simp [lastMax]

section Preorder

variable [Std.TransOrd κ]

/-- A key not below another is above or equal to it, read from the other side. -/
theorem isLE_swap_of_ne_lt {a b : κ} (h : compare a b ≠ .lt) : (compare b a).isLE := by
  apply Std.OrientedCmp.isGE_iff_isLE.mp
  cases hc : compare a b
  · exact absurd hc h
  · rfl
  · rfl

/-- `keepFirst` picks the earliest of three values with a greatest key, however grouped. -/
theorem keepFirst_assoc (a b c : κ × β) :
    keepFirst (keepFirst a b) c = keepFirst a (keepFirst b c) := by
  unfold keepFirst
  by_cases hab : compare a.1 b.1 = .lt
  · by_cases hbc : compare b.1 c.1 = .lt
    · have hac : compare a.1 c.1 = .lt := Std.TransCmp.lt_trans hab hbc
      simp [hab, hbc, hac]
    · simp [hab, hbc]
  · by_cases hbc : compare b.1 c.1 = .lt
    · simp [hab, hbc]
    · -- `a ≥ b ≥ c`, so `a` is not below `c`
      have hac : compare a.1 c.1 ≠ .lt := by
        intro hac
        have hba : (compare b.1 a.1).isLE := isLE_swap_of_ne_lt hab
        have hcb : (compare c.1 b.1).isLE := isLE_swap_of_ne_lt hbc
        have hca : (compare c.1 a.1).isLE := Std.TransCmp.isLE_trans hcb hba
        exact Std.OrientedCmp.not_lt_of_isLE hca hac
      simp [hab, hbc, hac]

theorem foldl_keepFirst (xs : List (κ × β)) (a b : κ × β) :
    xs.foldl keepFirst (keepFirst a b) = keepFirst a (xs.foldl keepFirst b) := by
  induction xs generalizing b with
  | nil => rfl
  | cons x xs ih =>
    simp only [List.foldl_cons]
    rw [keepFirst_assoc, ih]

theorem firstMax_cons (x : κ × β) (l : List (κ × β)) :
    firstMax (x :: l) = Option.merge keepFirst (some x) (firstMax l) := by
  cases l with
  | nil => rfl
  | cons y ys =>
    show some ((y :: ys).foldl keepFirst x) = some (keepFirst x (ys.foldl keepFirst y))
    rw [List.foldl_cons, foldl_keepFirst]

/-- `firstMax` takes concatenation to `keepFirst`. -/
theorem firstMax_append (l₁ l₂ : List (κ × β)) :
    firstMax (l₁ ++ l₂) = Option.merge keepFirst (firstMax l₁) (firstMax l₂) := by
  induction l₁ with
  | nil =>
    rw [List.nil_append]
    cases firstMax l₂ <;> rfl
  | cons x xs ih =>
    rw [List.cons_append, firstMax_cons, ih, firstMax_cons]
    cases firstMax xs <;> cases firstMax l₂ <;> simp [Option.merge, keepFirst_assoc]

/-- **Nested selection.**  The first maximum of the blocks' first maxima is the first maximum
    of the concatenated blocks. -/
theorem firstMax_flatten (ls : List (List (κ × β))) :
    firstMax (ls.filterMap firstMax) = firstMax ls.flatten := by
  induction ls with
  | nil => rfl
  | cons l ls ih =>
    rw [List.flatten_cons, firstMax_append, ← ih]
    cases h : firstMax l with
    | none => simp [h]
    | some x => rw [List.filterMap_cons, h, firstMax_cons]

end Preorder

/-- A map of keys that preserves every comparison, and any map of payloads, commute with
    `firstMax`. -/
theorem firstMax_map (f : κ → κ') (g : β → β') (hf : ∀ a b, compare (f a) (f b) = compare a b)
    (l : List (κ × β)) : firstMax (l.map (Prod.map f g)) = (firstMax l).map (Prod.map f g) := by
  have hkeep : ∀ a b : κ × β,
      keepFirst (Prod.map f g a) (Prod.map f g b) = Prod.map f g (keepFirst a b) := by
    intro a b
    unfold keepFirst
    simp only [Prod.map_fst, hf]
    split <;> rfl
  have hfold : ∀ (xs : List (κ × β)) (x : κ × β),
      (xs.map (Prod.map f g)).foldl keepFirst (Prod.map f g x) =
        Prod.map f g (xs.foldl keepFirst x) := by
    intro xs
    induction xs with
    | nil => intro x; rfl
    | cons y ys ih =>
      intro x
      simp only [List.map_cons, List.foldl_cons]
      rw [hkeep, ih]
  cases l with
  | nil => rfl
  | cons x xs =>
    simp only [List.map_cons, firstMax, Option.map_some]
    rw [hfold]

section Preorder

variable [Std.TransOrd κ]

theorem firstMax_mem {l : List (κ × β)} {x : κ × β} (h : firstMax l = some x) : x ∈ l := by
  induction l generalizing x with
  | nil => cases h
  | cons y ys ih =>
    rw [firstMax_cons] at h
    cases hys : firstMax ys with
    | none =>
      rw [hys] at h
      cases h
      exact List.mem_cons_self ..
    | some m =>
      rw [hys] at h
      simp only [Option.merge, Option.some.injEq] at h
      subst h
      unfold keepFirst
      split
      · exact List.mem_cons_of_mem y (ih hys)
      · exact List.mem_cons_self ..

/-- **The first maximum.**  `firstMax l = some x` exactly when `l` splits as
    `l₁ ++ x :: l₂` with no element above `x` and every element of `l₁` strictly below it. -/
theorem firstMax_eq_some_iff {l : List (κ × β)} {x : κ × β} :
    firstMax l = some x ↔
      ∃ l₁ l₂, l = l₁ ++ x :: l₂ ∧ (∀ y ∈ l, compare y.1 x.1 ≠ .gt) ∧
        ∀ y ∈ l₁, compare y.1 x.1 = .lt := by
  induction l generalizing x with
  | nil => simp
  | cons y ys ih =>
    rw [firstMax_cons]
    cases hys : firstMax ys with
    | none =>
      -- a single element is its own first maximum
      rw [firstMax_eq_none] at hys
      subst hys
      simp only [Option.merge, Option.some.injEq]
      constructor
      · rintro rfl
        refine ⟨[], [], rfl, ?_, by simp⟩
        intro z hz
        rw [List.mem_singleton] at hz
        subst hz
        simp [Std.ReflCmp.compare_self]
      · rintro ⟨l₁, l₂, hl, -, -⟩
        cases l₁ with
        | nil =>
          simp only [List.nil_append, List.cons.injEq] at hl
          exact hl.1
        | cons a l₁ => simp at hl
    | some m =>
      obtain ⟨l₁, l₂, hsplit, hle, hlt⟩ := ih.mp hys
      simp only [Option.merge, Option.some.injEq]
      constructor
      · intro hx
        unfold keepFirst at hx
        split at hx
        · -- `y` is below the first maximum of the rest, which stays the answer
          rename_i hym
          subst hx
          refine ⟨y :: l₁, l₂, by rw [hsplit, List.cons_append], ?_, ?_⟩
          · intro z hz
            rcases List.mem_cons.mp hz with rfl | hz
            · rw [hym]
              simp
            · exact hle z hz
          · intro z hz
            rcases List.mem_cons.mp hz with rfl | hz
            · exact hym
            · exact hlt z hz
        · -- otherwise `y` is not below anything of the rest
          rename_i hym
          subst hx
          refine ⟨[], ys, rfl, ?_, by simp⟩
          have hmy : (compare m.1 y.1).isLE := isLE_swap_of_ne_lt hym
          intro z hz
          rcases List.mem_cons.mp hz with rfl | hz
          · simp [Std.ReflCmp.compare_self]
          · have hzm : (compare z.1 m.1).isLE := Ordering.isLE_iff_ne_gt.mpr (hle z hz)
            exact Ordering.isLE_iff_ne_gt.mp (Std.TransCmp.isLE_trans hzm hmy)
      · rintro ⟨l₁', l₂', hsplit', hle', hlt'⟩
        cases l₁' with
        | nil =>
          simp only [List.nil_append, List.cons.injEq] at hsplit'
          obtain ⟨rfl, rfl⟩ := hsplit'
          have hmy : compare m.1 y.1 ≠ .gt := hle' m (List.mem_cons_of_mem _ (firstMax_mem hys))
          unfold keepFirst
          rw [if_neg (fun h => hmy (Std.OrientedCmp.gt_of_lt h))]
        | cons a l₁' =>
          simp only [List.cons_append, List.cons.injEq] at hsplit'
          obtain ⟨rfl, hys'⟩ := hsplit'
          have hyx : compare y.1 x.1 = .lt := hlt' y (List.mem_cons_self ..)
          have hmx : firstMax ys = some x :=
            ih.mpr ⟨l₁', l₂', hys', fun z hz => hle' z (List.mem_cons_of_mem _ hz),
              fun z hz => hlt' z (List.mem_cons_of_mem _ hz)⟩
          rw [hys, Option.some.injEq] at hmx
          subst hmx
          unfold keepFirst
          rw [if_pos hyx]

end Preorder

end LinkerdProxy
