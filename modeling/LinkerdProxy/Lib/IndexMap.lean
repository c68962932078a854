import Mathlib.Data.List.Perm.Basic
import Mathlib.Data.List.Nodup

namespace LinkerdProxy

/-!
# Insertion-ordered maps (`indexmap::IndexMap`)

An `IndexMap` is its entries in order, with no key twice; the structure carries that as a
field, so every operation shows that it keeps it.  Entries are reached by key or by position.
`insert` of a present key keeps its place; `swap_remove_index` moves the last entry into the
removed one's place, which is what makes positions change.

What is proved, each operation's effect on the entries:

* `get_eq_some_iff`, `get_eq_none_iff` — a key's value is the one entry that names it;
* `mem_insert`, `len_le_insert` — `insert` replaces the key's entry or adds one;
* `mem_remove_index` — `remove_index` drops the entry at a position and no other, by way of
  `set_getLast_dropLast_perm` (what is left is a permutation of the list with that position
  erased);
* `mem_swap_remove` — removing by key drops exactly that key's entry.
-/

/-- An insertion-ordered map: its entries in order, no key twice. -/
structure IndexMap (K V : Type*) where
  entries : List (K × V)
  nodup : (entries.map Prod.fst).Nodup

/-- Moving the last element into position `i` and dropping the last place leaves the list with
    position `i` erased, in another order. -/
theorem set_getLast_dropLast_perm {α : Type*} (l : List α) (i : Nat) (hi : i < l.length) :
    (l.set i (l.getLast (List.ne_nil_of_length_pos (by omega)))).dropLast.Perm (l.eraseIdx i) := by
  have hne : l ≠ [] := List.ne_nil_of_length_pos (by omega)
  -- split off the last element: `l = l' ++ [y]`
  obtain ⟨l', y, rfl⟩ : ∃ l' y, l = l' ++ [y] := ⟨_, _, (List.dropLast_append_getLast hne).symm⟩
  simp only [List.getLast_concat, List.length_append, List.length_singleton] at hi ⊢
  rcases Nat.lt_or_ge i l'.length with hlt | hge
  · -- `y` moves to position `i` of `l'`
    rw [List.set_append_left _ _ hlt, List.dropLast_concat, List.eraseIdx_append_of_lt_length hlt,
      List.set_eq_take_append_cons_drop, if_pos hlt, List.eraseIdx_eq_take_drop_succ,
      List.append_assoc]
    exact List.Perm.append_left _ (List.perm_append_singleton y _).symm
  · -- the last position itself
    have hi' : i = l'.length := by omega
    subst hi'
    rw [List.set_append_right _ _ (Nat.le_refl _), Nat.sub_self, List.set_cons_zero,
      List.dropLast_concat, List.eraseIdx_append_of_length_le (Nat.le_refl _), Nat.sub_self,
      List.eraseIdx_cons_zero, List.append_nil]

namespace IndexMap

variable {K V : Type*}

/-- `IndexMap::new`. -/
def empty : IndexMap K V := ⟨[], List.nodup_nil⟩

/-- `IndexMap::keys`. -/
def keys (m : IndexMap K V) : List K := m.entries.map Prod.fst

/-- `IndexMap::len`. -/
def len (m : IndexMap K V) : Nat := m.entries.length

/-- `IndexMap::get_index`. -/
def getIndex (m : IndexMap K V) (i : Nat) : Option (K × V) := m.entries[i]?

theorem ne_nil_of_lt_len {m : IndexMap K V} {i : Nat} (hi : i < m.len) : m.entries ≠ [] :=
  List.ne_nil_of_length_pos (by unfold len at hi; omega)

/-- What `IndexMap::swap_remove_index` leaves: the last entry takes the removed one's place. -/
def removeIndex (m : IndexMap K V) (i : Nat) : IndexMap K V :=
  if hi : i < m.len then
    ⟨(m.entries.set i (m.entries.getLast (ne_nil_of_lt_len hi))).dropLast,
      ((set_getLast_dropLast_perm m.entries i hi).map Prod.fst).nodup_iff.mpr
        (m.nodup.sublist ((List.eraseIdx_sublist _ i).map Prod.fst))⟩
  else m

/-- `IndexMap::swap_remove_index`. -/
def swapRemoveIndex (m : IndexMap K V) (i : Nat) : Option ((K × V) × IndexMap K V) :=
  (m.getIndex i).map fun e => (e, m.removeIndex i)

/-! ### Keys -/

@[simp] theorem entries_empty : (empty : IndexMap K V).entries = [] := rfl

theorem mem_keys {m : IndexMap K V} {k : K} : k ∈ m.keys ↔ ∃ v, (k, v) ∈ m.entries := by
  simp [keys]

theorem mem_keys_of_mem {m : IndexMap K V} {k : K} {v : V} (h : (k, v) ∈ m.entries) :
    k ∈ m.keys :=
  mem_keys.mpr ⟨v, h⟩

/-- No key names two values. -/
theorem eq_of_mem {m : IndexMap K V} {k : K} {v w : V} (hv : (k, v) ∈ m.entries)
    (hw : (k, w) ∈ m.entries) : v = w :=
  (Prod.mk.inj (List.inj_on_of_nodup_map m.nodup hv hw rfl)).2

/-! ### Positions -/

/-- `remove_index` drops the entry at `i`, whose key no other entry has. -/
theorem mem_remove_index {m : IndexMap K V} {i : Nat} (hi : i < m.len) {x : K × V} :
    x ∈ (m.removeIndex i).entries ↔ x ∈ m.entries ∧ x.1 ≠ (m.entries.get ⟨i, hi⟩).1 := by
  have hperm := set_getLast_dropLast_perm m.entries i hi
  have hnd := m.nodup
  unfold removeIndex
  rw [dif_pos hi]
  show x ∈ (m.entries.set i _).dropLast ↔ _
  rw [hperm.mem_iff, List.mem_eraseIdx_iff_getElem]
  have hi' : i < m.entries.length := hi
  constructor
  · rintro ⟨j, hj, hji, rfl⟩
    refine ⟨List.getElem_mem hj, fun heq => hji ?_⟩
    -- two positions with one key are one position
    have hj' : j < (m.entries.map Prod.fst).length := by simpa using hj
    have hi'' : i < (m.entries.map Prod.fst).length := by simpa using hi'
    have : (m.entries.map Prod.fst)[j] = (m.entries.map Prod.fst)[i] := by
      rw [List.getElem_map, List.getElem_map]
      exact heq
    exact (hnd.getElem_inj_iff).mp this
  · rintro ⟨hx, hxk⟩
    obtain ⟨j, hj, rfl⟩ := List.getElem_of_mem hx
    exact ⟨j, hj, fun hji => hxk (by subst hji; rfl), rfl⟩

theorem remove_index_of_le {m : IndexMap K V} {i : Nat} (hi : m.len ≤ i) :
    m.removeIndex i = m := by
  unfold removeIndex
  rw [dif_neg (by omega)]

theorem get_index_eq_some_iff {m : IndexMap K V} {i : Nat} {e : K × V} :
    m.getIndex i = some e ↔ ∃ hi : i < m.len, m.entries.get ⟨i, hi⟩ = e := by
  unfold getIndex len
  exact List.getElem?_eq_some_iff

variable [DecidableEq K]

/-- `IndexMap::get`. -/
def get (m : IndexMap K V) (k : K) : Option V := (m.entries.find? (·.1 = k)).map Prod.snd

/-- `IndexMap::contains_key`. -/
def contains (m : IndexMap K V) (k : K) : Bool := decide (k ∈ m.keys)

/-- The entry of key `k` given the value `v`, others left. -/
def replace (k : K) (v : V) (e : K × V) : K × V := if e.1 = k then (k, v) else e

theorem map_fst_replace (k : K) (v : V) (l : List (K × V)) :
    (l.map (replace k v)).map Prod.fst = l.map Prod.fst := by
  rw [List.map_map]
  refine List.map_congr_left fun e _ => ?_
  show (replace k v e).1 = e.1
  unfold replace
  split
  · rename_i h; exact h.symm
  · rfl

/-- `IndexMap::insert`: a key already present keeps its place and takes the new value; a new
    key goes last. -/
def insert (m : IndexMap K V) (k : K) (v : V) : IndexMap K V :=
  if hk : k ∈ m.keys then ⟨m.entries.map (replace k v), by rw [map_fst_replace]; exact m.nodup⟩
  else ⟨m.entries ++ [(k, v)], by
    rw [List.map_append, List.nodup_append]
    refine ⟨m.nodup, List.nodup_singleton _, fun a ha b hb => ?_⟩
    rw [List.map_singleton, List.mem_singleton] at hb
    subst hb
    exact fun h => hk (h ▸ ha)⟩

/-- `IndexMap::swap_remove`: the entry of `k`, if there is one, removed as `swap_remove_index`
    does. -/
def swapRemove (m : IndexMap K V) (k : K) : IndexMap K V :=
  match m.entries.findIdx? (·.1 = k) with
  | none => m
  | some i => m.removeIndex i

theorem get_eq_some_iff {m : IndexMap K V} {k : K} {v : V} :
    m.get k = some v ↔ (k, v) ∈ m.entries := by
  unfold get
  constructor
  · intro h
    obtain ⟨e, he, rfl⟩ := Option.map_eq_some_iff.mp h
    have hk : e.1 = k := by
      have := List.find?_some he
      simpa using this
    subst hk
    exact List.mem_of_find?_eq_some he
  · intro h
    cases he : m.entries.find? (·.1 = k) with
    | none =>
      -- the entry `(k, v)` is one the search would find
      have := List.find?_eq_none.mp he (k, v) h
      simp at this
    | some e =>
      have hk : e.1 = k := by
        have := List.find?_some he
        simpa using this
      have he' : (k, e.2) ∈ m.entries := hk ▸ List.mem_of_find?_eq_some he
      rw [Option.map_some, eq_of_mem he' h]

theorem get_eq_none_iff {m : IndexMap K V} {k : K} : m.get k = none ↔ k ∉ m.keys := by
  rw [mem_keys, not_exists]
  constructor
  · intro h v hv
    rw [get_eq_some_iff.mpr hv] at h
    cases h
  · intro h
    cases hg : m.get k with
    | none => rfl
    | some v => exact absurd (get_eq_some_iff.mp hg) (h v)

/-! ### Insertion -/

theorem mem_insert {m : IndexMap K V} {k : K} {v : V} {x : K × V} :
    x ∈ (m.insert k v).entries ↔ x = (k, v) ∨ (x ∈ m.entries ∧ x.1 ≠ k) := by
  unfold insert
  split
  · rename_i hk
    obtain ⟨w, hw⟩ := mem_keys.mp hk
    simp only [List.mem_map]
    constructor
    · rintro ⟨e, he, rfl⟩
      unfold replace
      by_cases h : e.1 = k
      · exact .inl (if_pos h)
      · rw [if_neg h]; exact .inr ⟨he, h⟩
    · rintro (rfl | ⟨hx, hxk⟩)
      · exact ⟨(k, w), hw, by simp [replace]⟩
      · exact ⟨x, hx, by simp [replace, hxk]⟩
  · rename_i hk
    simp only [List.mem_append, List.mem_singleton]
    constructor
    · rintro (hx | rfl)
      · exact .inr ⟨hx, fun h => hk (h ▸ mem_keys_of_mem hx)⟩
      · exact .inl rfl
    · rintro (rfl | ⟨hx, -⟩)
      · exact .inr rfl
      · exact .inl hx

theorem mem_keys_insert {m : IndexMap K V} {k k' : K} {v : V} :
    k' ∈ (m.insert k v).keys ↔ k' = k ∨ k' ∈ m.keys := by
  simp only [mem_keys, mem_insert, Prod.mk.injEq]
  constructor
  · rintro ⟨w, ⟨rfl, rfl⟩ | ⟨hw, -⟩⟩
    · exact .inl rfl
    · exact .inr ⟨w, hw⟩
  · rintro (rfl | ⟨w, hw⟩)
    · exact ⟨v, .inl ⟨rfl, rfl⟩⟩
    · by_cases h : k' = k
      · exact ⟨v, .inl ⟨h, rfl⟩⟩
      · exact ⟨w, .inr ⟨hw, h⟩⟩

theorem len_le_insert (m : IndexMap K V) (k : K) (v : V) : m.len ≤ (m.insert k v).len := by
  unfold insert len
  split
  · simp
  · simp

/-! ### Removal -/

/-- Removing by key drops exactly that key's entry. -/
theorem mem_swap_remove {m : IndexMap K V} {k : K} {x : K × V} :
    x ∈ (m.swapRemove k).entries ↔ x ∈ m.entries ∧ x.1 ≠ k := by
  unfold swapRemove
  split
  · rename_i hnone
    rw [List.findIdx?_eq_none_iff] at hnone
    constructor
    · intro hx
      exact ⟨hx, fun h => by simpa [h] using hnone x hx⟩
    · exact fun h => h.1
  · rename_i i hsome
    obtain ⟨hi, hk, -⟩ := List.findIdx?_eq_some_iff_getElem.mp hsome
    simp only [decide_eq_true_eq] at hk
    rw [mem_remove_index hi, List.get_eq_getElem, hk]

theorem mem_keys_swap_remove {m : IndexMap K V} {k k' : K} :
    k' ∈ (m.swapRemove k).keys ↔ k' ∈ m.keys ∧ k' ≠ k := by
  simp only [mem_keys, mem_swap_remove]
  constructor
  · rintro ⟨v, hv, hk⟩
    exact ⟨⟨v, hv⟩, hk⟩
  · rintro ⟨⟨v, hv⟩, hk⟩
    exact ⟨v, hv, hk⟩

end IndexMap

end LinkerdProxy
