import Mathlib.Data.List.Basic

namespace LinkerdProxy

/-!
# Multimaps as lists of entries

A multimap that keeps every value of a key in insertion order is, read as a list of entries, the
sequence of its field lines.  Removing a key deletes all of its entries and hands back the first of
its values, the contract of `http::HeaderMap::remove`.

* `removeKey_snd` — removal is a filter, so the other entries keep their order;
* `foldl_filter` — removals one after another are one filter;
* `getAll_insertKey`, `filter_ne_insertKey` — after an insertion the key has the one value, and
  the other entries are as they were.
-/

variable {κ β : Type*} [DecidableEq κ]

/-- Every value of a key, in order. -/
def getAll (m : List (κ × β)) (k : κ) : List β := (m.filter fun e => e.1 = k).map Prod.snd

/-- Removes every entry of a key, returning its first value. -/
def removeKey (k : κ) (m : List (κ × β)) : Option β × List (κ × β) :=
  ((getAll m k).head?, m.filter fun e => e.1 ≠ k)

@[simp] theorem removeKey_fst (k : κ) (m : List (κ × β)) :
    (removeKey k m).1 = (getAll m k).head? := rfl

@[simp] theorem removeKey_snd (k : κ) (m : List (κ × β)) :
    (removeKey k m).2 = m.filter fun e => e.1 ≠ k := rfl

@[simp] theorem getAll_nil (k : κ) : getAll ([] : List (κ × β)) k = [] := rfl

theorem getAll_cons (e : κ × β) (m : List (κ × β)) (k : κ) :
    getAll (e :: m) k = if e.1 = k then e.2 :: getAll m k else getAll m k := by
  unfold getAll
  by_cases h : e.1 = k <;> simp [h]

/-- The values of a key no filter on other keys removes. -/
theorem getAll_filter {p : κ → Bool} {m : List (κ × β)} {k : κ} (hk : p k = true) :
    getAll (m.filter fun e => p e.1) k = getAll m k := by
  unfold getAll
  rw [List.filter_filter]
  congr 2
  funext e
  by_cases h : e.1 = k
  · simp [h, hk]
  · simp [h]

/-- Sets a key to one value: the value takes the place of the key's first entry and the key's
    other entries go; a key with no entry is appended.  The contract of `http::HeaderMap::insert`. -/
def insertKey (k : κ) (v : β) : List (κ × β) → List (κ × β)
  | [] => [(k, v)]
  | e :: m => if e.1 = k then (k, v) :: m.filter (fun e => e.1 ≠ k) else e :: insertKey k v m

/-- A key a filter removes has no values left. -/
theorem getAll_filter_ne (k : κ) (m : List (κ × β)) :
    getAll (m.filter fun e => e.1 ≠ k) k = [] := by
  unfold getAll
  rw [List.filter_filter]
  simp

/-- After an insertion the key has exactly the inserted value. -/
@[simp] theorem getAll_insertKey (k : κ) (v : β) (m : List (κ × β)) :
    getAll (insertKey k v m) k = [v] := by
  induction m with
  | nil => simp [insertKey, getAll]
  | cons e m ih =>
    by_cases h : e.1 = k
    · rw [insertKey, if_pos h, getAll_cons, if_pos rfl, getAll_filter_ne]
    · rw [insertKey, if_neg h, getAll_cons, if_neg h, ih]

/-- An insertion leaves the entries of the other keys as they were, in order. -/
@[simp] theorem filter_ne_insertKey (k : κ) (v : β) (m : List (κ × β)) :
    (insertKey k v m).filter (fun e => e.1 ≠ k) = m.filter fun e => e.1 ≠ k := by
  induction m with
  | nil => simp [insertKey]
  | cons e m ih =>
    by_cases h : e.1 = k
    · -- the inserted entry takes the place of the first one, and both are filtered out
      rw [insertKey, if_pos h, List.filter_cons_of_neg (by simp), List.filter_filter,
        List.filter_cons_of_neg (by simp [h])]
      simp
    · have hne : decide (e.1 ≠ k) = true := by simpa using h
      rw [insertKey, if_neg h]
      simp only [List.filter_cons, hne, if_true, ih]

/-- **Filters in sequence** are one filter by all of their predicates, so the entries that stay
    keep their order. -/
theorem foldl_filter {γ α : Type*} (cs : List γ) (p : γ → α → Bool) (m : List α) :
    cs.foldl (fun m c => m.filter (p c)) m = m.filter fun e => cs.all fun c => p c e := by
  induction cs generalizing m with
  | nil => simp
  | cons c cs ih =>
    rw [List.foldl_cons, ih, List.filter_filter]
    congr 1
    funext e
    simp [Bool.and_comm]

end LinkerdProxy
