import Mathlib.Computability.Language

namespace LinkerdProxy

open Computability

/-!
# Regular expressions with leftmost-first matching

A regular expression has two readings.  Its language (`Regex.lang`, a Mathlib `Language`) is the
set of strings it matches as a whole.  A backtracking search, and an engine that simulates one,
reads it with priorities instead: an alternation tries its left side first, a greedy repetition
tries one more iteration before stopping and a lazy one the other way round.  `Regex.ends` lists
the lengths of the matches at the front of a string in that order, and `Regex.find` returns the
leftmost-first match: the first start with a match, and there the first of them.  A repetition
never iterates on an empty match, as in an engine that skips a state it has already visited at
the same position.

* `mem_ends_iff` — the ends are exactly the lengths of the prefixes in the language;
* `mem_lang_iff_length_mem_ends` — a string is in the language iff its length is among the ends;
* `find_eq_some_zero_iff` — a match from the start is the first of the ends there;
* `find_bounds` — the leftmost-first match lies within the input.
-/

/-- A regular expression over `α`: the empty match, a class of characters, an ordered
    alternation, a concatenation, and a repetition that prefers more iterations (`greedy`) or
    fewer. -/
inductive Regex (α : Type*) where
  | empty
  | cls (p : α → Bool)
  | alt (r t : Regex α)
  | seq (r t : Regex α)
  | star (r : Regex α) (greedy : Bool)

namespace Regex

variable {α : Type*}

/-- The language of a regular expression: what it matches as a whole, whatever the priorities. -/
def lang : Regex α → Language α
  | empty => 1
  | cls p => {w | ∃ c, p c = true ∧ w = [c]}
  | alt r t => lang r + lang t
  | seq r t => lang r * lang t
  | star r _ => (lang r)∗

/-- The ends of a repetition's matches at the front of `s`, by priority, given the ends `f` of
    one iteration: the iterations that match something, each followed by the rest of the
    repetition, after (greedy) or before (lazy) stopping there.  `fuel` bounds the number of
    iterations; the length of `s` is enough (`mem_starEnds_iff`). -/
def starEnds (f : List α → List Nat) (greedy : Bool) : Nat → List α → List Nat
  | 0, _ => [0]
  | fuel + 1, s =>
    let more := ((f s).filter (0 < ·)).flatMap fun n =>
      (starEnds f greedy fuel (s.drop n)).map (n + ·)
    if greedy then more ++ [0] else 0 :: more

/-- The lengths of the matches of `r` at the front of `s`, in the order a backtracking search
    finds them. -/
def ends : Regex α → List α → List Nat
  | empty, _ => [0]
  | cls p, s =>
    match s with
    | c :: _ => if p c then [1] else []
    | [] => []
  | alt r t, s => ends r s ++ ends t s
  | seq r t, s => (ends r s).flatMap fun n => (ends t (s.drop n)).map (n + ·)
  | star r greedy, s => starEnds (ends r) greedy s.length s

/-- Leftmost-first search from offset `i`: the first start with a match, and there the match of
    highest priority, as start and end offsets. -/
def findFrom (r : Regex α) (i : Nat) : List α → Option (Nat × Nat)
  | [] => (ends r []).head?.map fun n => (i, i + n)
  | c :: t =>
    match (ends r (c :: t)).head? with
    | some n => some (i, i + n)
    | none => findFrom r (i + 1) t

/-- The leftmost-first match of `r` in `s`. -/
def find (r : Regex α) (s : List α) : Option (Nat × Nat) := findFrom r 0 s

/-- The single character `c`. -/
def char [DecidableEq α] (c : α) : Regex α := cls (· = c)

/-- The string `w`, character by character. -/
def str [DecidableEq α] : List α → Regex α
  | [] => empty
  | c :: w => seq (char c) (str w)

/-! ### Equations -/

section Equations

variable (s : List α)

theorem ends_empty : ends (empty : Regex α) s = [0] := rfl

theorem ends_alt (r t : Regex α) : ends (alt r t) s = ends r s ++ ends t s := rfl

theorem ends_seq (r t : Regex α) :
    ends (seq r t) s = (ends r s).flatMap fun n => (ends t (s.drop n)).map (n + ·) := rfl

theorem ends_star (r : Regex α) (greedy : Bool) :
    ends (star r greedy) s = starEnds (ends r) greedy s.length s := rfl

theorem mem_starEnds_succ {f : List α → List Nat} {greedy : Bool} {fuel n : Nat} :
    n ∈ starEnds f greedy (fuel + 1) s ↔
      n = 0 ∨ ∃ m ∈ f s, 0 < m ∧ ∃ j ∈ starEnds f greedy fuel (s.drop m), m + j = n := by
  -- the order of the iterations against stopping is immaterial to membership
  have hmore : n ∈ ((f s).filter (0 < ·)).flatMap (fun m =>
        (starEnds f greedy fuel (s.drop m)).map (m + ·)) ↔
      ∃ m ∈ f s, 0 < m ∧ ∃ j ∈ starEnds f greedy fuel (s.drop m), m + j = n := by
    simp only [List.mem_flatMap, List.mem_filter, decide_eq_true_eq, List.mem_map, and_assoc]
  rw [starEnds]
  cases greedy
  · simp only [Bool.false_eq_true, if_false, List.mem_cons, hmore]
  · simp only [if_true, List.mem_append, List.mem_singleton, hmore]
    exact or_comm

end Equations

/-! ### Splitting a prefix -/

/-- A prefix is in a concatenation iff it splits, at some point, into a prefix in the first
    language followed by a piece in the second. -/
theorem take_mem_mul {A B : Language α} {s : List α} {n : Nat} (hn : n ≤ s.length) :
    s.take n ∈ A * B ↔ ∃ m ≤ n, s.take m ∈ A ∧ (s.drop m).take (n - m) ∈ B := by
  constructor
  · rintro ⟨u, hu, v, hv, huv⟩
    have huv : u ++ v = s.take n := huv
    have hpre : u <+: s.take n := ⟨v, huv⟩
    have hm : u.length ≤ n := by simpa [hn] using hpre.length_le
    refine ⟨u.length, hm, ?_, ?_⟩
    · -- the first piece is the prefix of its own length
      have hu' : u = s.take u.length := by
        conv_lhs => rw [List.prefix_iff_eq_take.mp hpre]
        rw [List.take_take, Nat.min_eq_left hm]
      rwa [← hu']
    · have hv' : v = (s.take n).drop u.length := by rw [← huv, List.drop_left]
      rw [List.drop_take] at hv'
      rwa [← hv']
  · rintro ⟨m, hm, hA, hB⟩
    refine ⟨s.take m, hA, (s.drop m).take (n - m), hB, ?_⟩
    show s.take m ++ (s.drop m).take (n - m) = s.take n
    rw [← List.take_add, Nat.add_sub_cancel' hm]

/-- **Unfolding a repetition.**  A string is in the Kleene star iff it is empty or a non-empty
    word of the language followed by a string of the star. -/
theorem mem_kstar_iff_nil_or_mem_mul {l : Language α} {x : List α} :
    x ∈ l∗ ↔ x = [] ∨ x ∈ (l - 1) * l∗ := by
  constructor
  · intro hx
    obtain ⟨S, rfl, hS⟩ := Language.mem_kstar_iff_exists_nonempty.mp hx
    cases S with
    | nil => exact .inl rfl
    | cons u S =>
      have hu : u ∈ l - 1 := by
        rw [Language.mem_sub, Language.mem_one]
        exact hS u List.mem_cons_self
      have hrest : S.flatten ∈ l∗ :=
        Language.join_mem_kstar fun y hy => (hS y (List.mem_cons_of_mem u hy)).1
      exact .inr (Language.append_mem_mul hu hrest)
  · rintro (rfl | ⟨u, hu, v, hv, rfl⟩)
    · exact Language.nil_mem_kstar l
    · obtain ⟨L, rfl, hL⟩ := Language.mem_kstar.mp hv
      have hu' : u ∈ l := ((Language.mem_sub _ _ _).mp hu).1
      refine Language.mem_kstar.mpr ⟨u :: L, by simp, fun y hy => ?_⟩
      rcases List.mem_cons.mp hy with rfl | hy
      · exact hu'
      · exact hL y hy

theorem take_eq_nil_iff_of_le {s : List α} {n : Nat} (hn : n ≤ s.length) :
    s.take n = [] ↔ n = 0 := by
  rw [List.take_eq_nil_iff]
  constructor
  · rintro (h | rfl)
    · exact h
    · simpa using hn
  · exact .inl

/-! ### The ends are the language's prefixes -/

/-- **The ends of a repetition.**  Given one iteration's ends, with enough fuel the repetition's
    ends are exactly the lengths of the prefixes in the star of the iteration's language. -/
theorem mem_starEnds_iff {f : List α → List Nat} {L : Language α}
    (hf : ∀ t m, m ∈ f t ↔ m ≤ t.length ∧ t.take m ∈ L) (greedy : Bool) :
    ∀ (fuel : Nat) (s : List α) (n : Nat), s.length ≤ fuel →
      (n ∈ starEnds f greedy fuel s ↔ n ≤ s.length ∧ s.take n ∈ L∗) := by
  intro fuel
  induction fuel with
  | zero =>
    intro s n hs
    have hs0 : s = [] := List.eq_nil_of_length_eq_zero (Nat.le_zero.mp hs)
    subst hs0
    simp only [starEnds, List.mem_singleton, List.length_nil, Nat.le_zero, List.take_nil]
    constructor
    · rintro rfl
      exact ⟨rfl, Language.nil_mem_kstar L⟩
    · exact And.left
  | succ fuel ih =>
    intro s n hs
    rw [mem_starEnds_succ]
    constructor
    · rintro (rfl | ⟨m, hm, hpos, j, hj, rfl⟩)
      · exact ⟨Nat.zero_le _, by simpa using Language.nil_mem_kstar L⟩
      · -- one non-empty iteration, then the rest of the repetition
        obtain ⟨hmlen, hmL⟩ := (hf s m).mp hm
        have hrest : (s.drop m).length ≤ fuel := by simp; omega
        obtain ⟨hjlen, hjL⟩ := (ih (s.drop m) j hrest).mp hj
        have hjlen' : j ≤ s.length - m := by simpa using hjlen
        refine ⟨by omega, mem_kstar_iff_nil_or_mem_mul.mpr (.inr ?_)⟩
        rw [take_mem_mul (by omega)]
        refine ⟨m, by omega, (Language.mem_sub _ _ _).mpr ⟨hmL, ?_⟩, by simpa using hjL⟩
        rw [Language.mem_one, take_eq_nil_iff_of_le hmlen]
        omega
    · rintro ⟨hn, hstar⟩
      rcases mem_kstar_iff_nil_or_mem_mul.mp hstar with hnil | hmul
      · exact .inl ((take_eq_nil_iff_of_le hn).mp hnil)
      · obtain ⟨m, hmn, hm1, hrestL⟩ := (take_mem_mul hn).mp hmul
        have hmlen : m ≤ s.length := by omega
        rw [Language.mem_sub, Language.mem_one, take_eq_nil_iff_of_le hmlen] at hm1
        obtain ⟨hmL, hm0⟩ := hm1
        have hpos : 0 < m := by omega
        have hrest : (s.drop m).length ≤ fuel := by simp; omega
        refine .inr ⟨m, (hf s m).mpr ⟨hmlen, hmL⟩, hpos, n - m, ?_, by omega⟩
        exact (ih (s.drop m) (n - m) hrest).mpr ⟨by simp; omega, hrestL⟩

/-- **The ends are the language's prefixes.**  `n` is among the ends of `r` at the front of `s`
    iff the prefix of length `n` is in the language of `r`. -/
theorem mem_ends_iff : ∀ (r : Regex α) (s : List α) (n : Nat),
    n ∈ ends r s ↔ n ≤ s.length ∧ s.take n ∈ lang r
  | empty, s, n => by
    rw [ends_empty, List.mem_singleton, lang, Language.mem_one]
    constructor
    · rintro rfl
      exact ⟨Nat.zero_le _, List.take_zero⟩
    · rintro ⟨hn, hnil⟩
      exact (take_eq_nil_iff_of_le hn).mp hnil
  | cls p, [], n => by
    simp only [ends, List.not_mem_nil, List.length_nil, List.take_nil, false_iff, not_and]
    intro _ h
    obtain ⟨c, -, hc⟩ := h
    cases hc
  | cls p, c :: t, n => by
    simp only [ends, lang, List.length_cons]
    -- only the prefix of length one is a single character
    constructor
    · intro h
      split at h
      · rename_i hc
        rw [List.mem_singleton] at h
        subst h
        exact ⟨by omega, c, hc, rfl⟩
      · cases h
    · rintro ⟨hn, d, hd, htake⟩
      cases n with
      | zero => cases htake
      | succ n =>
        rw [List.take_succ_cons, List.cons.injEq] at htake
        obtain ⟨rfl, hrest⟩ := htake
        have hn0 : n = 0 := (take_eq_nil_iff_of_le (by omega)).mp hrest
        subst hn0
        simp [hd]
  | alt r t, s, n => by
    rw [ends_alt, List.mem_append, mem_ends_iff r, mem_ends_iff t, lang, Language.mem_add,
      and_or_left]
  | seq r t, s, n => by
    rw [ends_seq, lang]
    simp only [List.mem_flatMap, List.mem_map, mem_ends_iff r, mem_ends_iff t]
    constructor
    · rintro ⟨m, ⟨hm, hmL⟩, j, ⟨hj, hjL⟩, rfl⟩
      have hj' : j ≤ s.length - m := by simpa using hj
      refine ⟨by omega, (take_mem_mul (by omega)).mpr ⟨m, by omega, hmL, ?_⟩⟩
      simpa using hjL
    · rintro ⟨hn, hmul⟩
      obtain ⟨m, hmn, hmL, hjL⟩ := (take_mem_mul hn).mp hmul
      exact ⟨m, ⟨by omega, hmL⟩, n - m, ⟨by simp; omega, hjL⟩, by omega⟩
  | star r greedy, s, n => by
    rw [ends_star, lang]
    exact mem_starEnds_iff (mem_ends_iff r) greedy s.length s n le_rfl

/-- A string is in the language iff its whole length is among the ends of its matches. -/
theorem mem_lang_iff_length_mem_ends (r : Regex α) (s : List α) :
    s ∈ lang r ↔ s.length ∈ ends r s := by
  rw [mem_ends_iff, List.take_length]
  exact ⟨fun h => ⟨le_rfl, h⟩, And.right⟩

/-! ### Leftmost-first search -/

theorem le_length_of_head?_ends {r : Regex α} {s : List α} {n : Nat}
    (h : (ends r s).head? = some n) : n ≤ s.length :=
  ((mem_ends_iff r s n).mp (List.mem_of_mem_head? h)).1

/-- A search from offset `i` finds a match that starts no earlier than `i` and ends within the
    input. -/
theorem findFrom_bounds (r : Regex α) :
    ∀ (s : List α) (i a b : Nat), findFrom r i s = some (a, b) →
      i ≤ a ∧ a ≤ b ∧ b ≤ i + s.length
  | [], i, a, b, h => by
    simp only [findFrom, Option.map_eq_some_iff, Prod.mk.injEq] at h
    obtain ⟨n, hn, rfl, rfl⟩ := h
    have := le_length_of_head?_ends hn
    simp only [List.length_nil] at this ⊢
    omega
  | c :: t, i, a, b, h => by
    simp only [findFrom] at h
    split at h
    · rename_i n hn
      cases h
      have := le_length_of_head?_ends hn
      omega
    · -- no match at `i`: the search goes on from the next offset
      have := findFrom_bounds r t (i + 1) a b h
      simp only [List.length_cons]
      omega

/-- The leftmost-first match lies within the input. -/
theorem find_bounds {r : Regex α} {s : List α} {a b : Nat} (h : find r s = some (a, b)) :
    a ≤ b ∧ b ≤ s.length := by
  have := findFrom_bounds r s 0 a b h
  omega

/-- **A match from the start.**  The leftmost-first match starts at the beginning and ends at
    `e` iff the first of the ends at the beginning is `e`. -/
theorem find_eq_some_zero_iff (r : Regex α) (s : List α) (e : Nat) :
    find r s = some (0, e) ↔ (ends r s).head? = some e := by
  unfold find
  cases s with
  | nil =>
    simp only [findFrom, Option.map_eq_some_iff, Prod.mk.injEq, zero_add, true_and]
    exact ⟨fun ⟨n, hn, he⟩ => he ▸ hn, fun h => ⟨e, h, rfl⟩⟩
  | cons c t =>
    simp only [findFrom]
    split
    · rename_i n hn
      rw [hn, Option.some.injEq, Option.some.injEq, Prod.mk.injEq, zero_add]
      exact ⟨And.right, fun h => ⟨rfl, h⟩⟩
    · -- no match at the start: the search goes on from offset one
      rename_i hn
      rw [hn]
      constructor
      · intro h
        have := (findFrom_bounds r t 1 0 e h).1
        omega
      · intro h
        cases h

end Regex

end LinkerdProxy
