import Mathlib.Data.List.Count
import Mathlib.Algebra.BigOperators.Fin
import Mathlib.Tactic.Ring

namespace LinkerdProxy.Breaker

/-!
# The success-rate window of the circuit breaker

`SuccessRateWindow` (`http/breaker/success_rate.rs`) keeps a ring of `BUCKETS` slices of width
`bucket_width`; `record` first rolls the ring to `now`, zeroing the slices that left the window,
then counts the sample in the current slice.  Time is modelled as nanoseconds (`Nat`) since an
arbitrary origin, a `Duration` as a number of nanoseconds, and the two `usize` conversions of
`roll` (the `as usize` cast of the step count and the `current + steps` addition) wrap modulo
`2 ^ 64`, as they do in the 64-bit release build.

The abstract layer is `ExactWindow`: every sample with the slice it was charged to.  The
refinement `Refines` ties the ring to it, and `record_refines` shows that one `record` keeps the
two related as long as the step count fits a `usize` and no slice saturates its `u32` counters.
`record_refines_exact` carries it over every schedule from a fresh window whose timestamps lie
less than `2 ^ 64 - BUCKETS` widths past the anchor (at the smallest width, some 585 million
years).
-/

/-- Number of buckets spanning the window (`BUCKETS`). -/
def BUCKETS : Nat := 10

/-- Floor for a single bucket's width, one millisecond in nanoseconds (`MIN_BUCKET_WIDTH`). -/
def MIN_BUCKET_WIDTH : Nat := 1000000

/-- Floor for the whole window (`MIN_WINDOW`). -/
def MIN_WINDOW : Nat := MIN_BUCKET_WIDTH * BUCKETS

/-- `u32::MAX`, the ceiling of a bucket's saturating counters. -/
def U32_MAX : Nat := 2 ^ 32 - 1

/-- The modulus of a 64-bit `usize`. -/
def USIZE_MOD : Nat := 2 ^ 64

/-- `u32::saturating_add(1)` on a counter that is at most `u32::MAX`. -/
def saturatingInc (x : Nat) : Nat := min (x + 1) U32_MAX

/-- One slice of the success-rate window (`Bucket`). -/
structure Bucket where
  successes : Nat
  total : Nat
  deriving DecidableEq, Repr

/-- `Bucket::default()`, also what `Bucket::clear` leaves behind. -/
def Bucket.empty : Bucket := ⟨0, 0⟩

/-- A ring of fixed-duration buckets tracking the success ratio over a trailing window
    (`SuccessRateWindow`).  `current` indexes the ring, so it is a `Fin BUCKETS`; the bucket
    width is never below `MIN_BUCKET_WIDTH`. -/
structure SuccessRateWindow where
  buckets : Fin BUCKETS → Bucket
  bucket_width : Nat
  current : Fin BUCKETS
  last_roll : Nat
  min_width_le : MIN_BUCKET_WIDTH ≤ bucket_width

namespace SuccessRateWindow

/-- `window.max(MIN_WINDOW) / BUCKETS as u32`.  `Duration / u32` divides the seconds and the
    carried nanoseconds separately; for the divisor `10` this is the exact floor of the
    nanosecond count. -/
def widthOf (window : Nat) : Nat := max window MIN_WINDOW / BUCKETS

theorem min_width_le_widthOf (window : Nat) : MIN_BUCKET_WIDTH ≤ widthOf window := by
  unfold widthOf MIN_WINDOW BUCKETS MIN_BUCKET_WIDTH
  omega

/-- `SuccessRateWindow::new(window, now)`. -/
def new (window now : Nat) : SuccessRateWindow where
  buckets := fun _ => Bucket.empty
  bucket_width := widthOf window
  current := ⟨0, by decide⟩
  last_roll := now
  min_width_le := min_width_le_widthOf window

/-- Clear the bucket at `idx` (`self.buckets[idx].clear()`). -/
def clearAt (bs : Fin BUCKETS → Bucket) (idx : Fin BUCKETS) : Fin BUCKETS → Bucket :=
  Function.update bs idx Bucket.empty

/-- `for i in 1..=steps { self.buckets[(self.current + i) % BUCKETS].clear() }`. -/
def clearSteps (bs : Fin BUCKETS → Bucket) (current : Fin BUCKETS) (steps : Nat) :
    Fin BUCKETS → Bucket :=
  (List.range' 1 steps).foldl
    (fun bs i => clearAt bs ⟨(current.val + i) % BUCKETS, Nat.mod_lt _ (by decide)⟩) bs

/-- `SuccessRateWindow::roll`: advance the ring so the current bucket covers `now`. -/
def roll (w : SuccessRateWindow) (now : Nat) : SuccessRateWindow :=
  -- `now.saturating_duration_since(self.last_roll)`
  let elapsed := now - w.last_roll
  -- `(elapsed.as_nanos() / self.bucket_width.as_nanos().max(1)) as usize`
  let steps := elapsed / max w.bucket_width 1 % USIZE_MOD
  if steps = 0 then w
  else
    { buckets :=
        if BUCKETS ≤ steps then fun _ => Bucket.empty
        else clearSteps w.buckets w.current steps
      bucket_width := w.bucket_width
      -- `(self.current + steps) % BUCKETS`, the `usize` addition wrapping
      current := ⟨(w.current.val + steps) % USIZE_MOD % BUCKETS, Nat.mod_lt _ (by decide)⟩
      -- `self.last_roll += elapsed - Duration::from_nanos(remainder as u64)`
      last_roll := w.last_roll + (elapsed - elapsed % max w.bucket_width 1)
      min_width_le := w.min_width_le }

/-- The step count `roll` computes: whole widths since `last_roll`, cast to `usize`. -/
def steps (w : SuccessRateWindow) (now : Nat) : Nat :=
  (now - w.last_roll) / max w.bucket_width 1 % USIZE_MOD

theorem roll_of_steps_eq_zero {w : SuccessRateWindow} {now : Nat} (h : w.steps now = 0) :
    w.roll now = w := by
  unfold steps at h
  simp only [roll, h, if_true]

@[simp] theorem roll_bucket_width (w : SuccessRateWindow) (now : Nat) :
    (w.roll now).bucket_width = w.bucket_width := by
  simp only [roll]
  split <;> rfl

theorem roll_last_roll {w : SuccessRateWindow} {now : Nat} (h : w.steps now ≠ 0) :
    (w.roll now).last_roll =
      w.last_roll + ((now - w.last_roll) - (now - w.last_roll) % max w.bucket_width 1) := by
  unfold steps at h
  simp only [roll, if_neg h]

theorem roll_current {w : SuccessRateWindow} {now : Nat} (h : w.steps now ≠ 0) :
    (w.roll now).current.val = (w.current.val + w.steps now) % USIZE_MOD % BUCKETS := by
  unfold steps at h ⊢
  simp only [roll, if_neg h]

theorem roll_buckets {w : SuccessRateWindow} {now : Nat} (h : w.steps now ≠ 0) :
    (w.roll now).buckets =
      if BUCKETS ≤ w.steps now then fun _ => Bucket.empty
      else clearSteps w.buckets w.current (w.steps now) := by
  unfold steps at h ⊢
  simp only [roll, if_neg h]

/-- `SuccessRateWindow::record`: roll to `now`, then count the sample in the current bucket. -/
def record (w : SuccessRateWindow) (success : Bool) (now : Nat) : SuccessRateWindow :=
  let w := w.roll now
  let b := w.buckets w.current
  { w with
    buckets := Function.update w.buckets w.current
      { total := saturatingInc b.total
        successes := if success then saturatingInc b.successes else b.successes } }

theorem record_buckets (w : SuccessRateWindow) (success : Bool) (now : Nat) :
    (w.record success now).buckets = Function.update (w.roll now).buckets (w.roll now).current
      { total := saturatingInc ((w.roll now).buckets (w.roll now).current).total
        successes := if success then saturatingInc ((w.roll now).buckets (w.roll now).current).successes
          else ((w.roll now).buckets (w.roll now).current).successes } := rfl

@[simp] theorem record_bucket_width (w : SuccessRateWindow) (success : Bool) (now : Nat) :
    (w.record success now).bucket_width = w.bucket_width := by
  simp [record]

/-- `SuccessRateWindow::totals`: the buckets summed into `(successes, total)`. -/
def totals (w : SuccessRateWindow) : Nat × Nat :=
  (∑ k, (w.buckets k).successes, ∑ k, (w.buckets k).total)

/-- `SuccessRateWindow::should_trip(min_requests, threshold)`.  The `f64` comparison
    `successes as f64 / total as f64 < threshold` is the parameter `below`. -/
def shouldTrip (w : SuccessRateWindow) (min_requests : Nat) (below : Nat → Nat → Bool) :
    Bool :=
  let (successes, total) := w.totals
  if total ≠ 0 then decide (min_requests ≤ total) && below successes total else false

/-- The window trips exactly when it holds at least `max(min_requests, 1)` samples and the
    ratio comparison says the rate is below the threshold. -/
theorem should_trip_iff (w : SuccessRateWindow) (min_requests : Nat) (below : Nat → Nat → Bool) :
    w.shouldTrip min_requests below = true ↔
      max min_requests 1 ≤ w.totals.2 ∧ below w.totals.1 w.totals.2 = true := by
  unfold shouldTrip
  by_cases h : w.totals.2 = 0
  · simp [h]
  · have hmax : max min_requests 1 ≤ w.totals.2 ↔ min_requests ≤ w.totals.2 := by omega
    simp only [ne_eq, h, not_false_eq_true, if_true, Bool.and_eq_true, decide_eq_true_eq, hmax]

/-- `SuccessRateWindow::reset`: clear every bucket and re-anchor at `now`. -/
def reset (w : SuccessRateWindow) (now : Nat) : SuccessRateWindow :=
  { w with buckets := fun _ => Bucket.empty, current := ⟨0, by decide⟩, last_roll := now }

/-- Resetting any window of the width `new` gives it is `new` itself. -/
theorem reset_eq_new_of_width {w : SuccessRateWindow} {window : Nat}
    (h : w.bucket_width = widthOf window) (now : Nat) : w.reset now = new window now := by
  obtain ⟨buckets, bucket_width, current, last_roll, _⟩ := w
  simp only at h
  subst h
  rfl

@[simp] theorem new_bucket_width (window now : Nat) :
    (new window now).bucket_width = widthOf window := rfl

/-- Record a schedule of `(success, now)` samples in order. -/
def feed (w : SuccessRateWindow) (rs : List (Bool × Nat)) : SuccessRateWindow :=
  rs.foldl (fun w r => w.record r.1 r.2) w

/-! ### The clearing loop -/

/-- A loop that overwrites entries with one value sets exactly the entries it writes. -/
theorem foldl_update_const_apply {α κ β : Type*} [DecidableEq κ] (w : α → κ) (v : β)
    (l : List α) (y : κ → β) (k : κ) :
    l.foldl (fun y a => Function.update y (w a) v) y k = if ∃ a ∈ l, w a = k then v else y k := by
  induction l generalizing y with
  | nil => simp
  | cons a l ih =>
    rw [List.foldl_cons, ih]
    by_cases hk : w a = k
    · subst hk
      simp
    · simp [Function.update_of_ne (Ne.symm hk), hk]

/-- The buckets the loop clears: `current + i ≡ k` for a step `1 ≤ i ≤ steps`. -/
def Cleared (current : Fin BUCKETS) (steps : Nat) (k : Fin BUCKETS) : Prop :=
  ∃ i, 1 ≤ i ∧ i ≤ steps ∧ (current.val + i) % BUCKETS = k.val

theorem clearSteps_of_cleared (bs : Fin BUCKETS → Bucket) {current : Fin BUCKETS} {steps : Nat}
    {k : Fin BUCKETS} (h : Cleared current steps k) : clearSteps bs current steps k = Bucket.empty := by
  obtain ⟨i, h1, h2, hk⟩ := h
  unfold clearSteps clearAt
  rw [foldl_update_const_apply, if_pos]
  exact ⟨i, List.mem_range'_1.mpr ⟨h1, by omega⟩, Fin.ext hk⟩

theorem clearSteps_of_not_cleared (bs : Fin BUCKETS → Bucket) {current : Fin BUCKETS}
    {steps : Nat} {k : Fin BUCKETS} (h : ¬ Cleared current steps k) :
    clearSteps bs current steps k = bs k := by
  unfold clearSteps clearAt
  rw [foldl_update_const_apply, if_neg]
  rintro ⟨i, hi, hk⟩
  obtain ⟨h1, h2⟩ := List.mem_range'_1.mp hi
  exact h ⟨i, h1, by omega, Fin.ext_iff.mp hk⟩

end SuccessRateWindow

/-! ### The exact sliding window -/

/-- The window the ring is meant to implement: every sample, with the slice (`slot`) it was
    charged to.  The current slot only moves forward: a sample stamped before the current slice
    is charged to the current one, as `roll` does with a saturated elapsed time. -/
structure ExactWindow where
  anchor : Nat
  width : Nat
  slot : Nat
  samples : List (Bool × Nat)

namespace ExactWindow

/-- The slice `floor((now - anchor) / width)` of an instant, `0` before the anchor. -/
def slotOf (a : ExactWindow) (now : Nat) : Nat := (now - a.anchor) / a.width

/-- Move the current slot forward to the slice of `now`. -/
def advance (a : ExactWindow) (now : Nat) : ExactWindow :=
  { a with slot := max a.slot (a.slotOf now) }

/-- Charge one sample to the slice of `now` (or the current one, if later). -/
def record (a : ExactWindow) (success : Bool) (now : Nat) : ExactWindow :=
  let a := a.advance now
  { a with samples := a.samples ++ [(success, a.slot)] }

/-- Record a schedule of samples in order. -/
def feed (a : ExactWindow) (rs : List (Bool × Nat)) : ExactWindow :=
  rs.foldl (fun a r => a.record r.1 r.2) a

theorem record_samples (a : ExactWindow) (success : Bool) (now : Nat) :
    (a.record success now).samples = (a.advance now).samples ++ [(success, (a.advance now).slot)] :=
  rfl

/-- A sample is live while its slice is among the last `BUCKETS` ones. -/
def live (a : ExactWindow) (p : Bool × Nat) : Bool := decide (a.slot < p.2 + BUCKETS)

/-- Live successes and live samples. -/
def totals (a : ExactWindow) : Nat × Nat :=
  (a.samples.countP (fun p => p.1 && a.live p), a.samples.countP a.live)

/-- The empty window anchored at `t₀`, with the bucket width `SuccessRateWindow::new` uses. -/
def fresh (window t₀ : Nat) : ExactWindow := ⟨t₀, SuccessRateWindow.widthOf window, 0, []⟩

end ExactWindow

/-- A sample sits in ring bucket `k` when its slice is congruent to `k` and still live. -/
def inBucket (a : ExactWindow) (k : Fin BUCKETS) (p : Bool × Nat) : Bool :=
  decide (p.2 % BUCKETS = k.val) && a.live p

/-- The ring refines the exact window: same width, anchor `last_roll` on the current slice,
    `current` its residue, and every bucket counting exactly its live samples. -/
structure Refines (w : SuccessRateWindow) (a : ExactWindow) : Prop where
  width_eq : w.bucket_width = a.width
  last_roll_eq : w.last_roll = a.anchor + a.slot * a.width
  current_eq : w.current.val = a.slot % BUCKETS
  samples_le : ∀ p ∈ a.samples, p.2 ≤ a.slot
  total_eq : ∀ k, (w.buckets k).total = a.samples.countP (inBucket a k)
  successes_eq : ∀ k, (w.buckets k).successes = a.samples.countP (fun p => p.1 && inBucket a k p)

theorem refines_fresh (window t₀ : Nat) :
    Refines (SuccessRateWindow.new window t₀) (ExactWindow.fresh window t₀) where
  width_eq := rfl
  last_roll_eq := by simp [SuccessRateWindow.new, ExactWindow.fresh]
  current_eq := rfl
  samples_le := by simp [ExactWindow.fresh]
  total_eq := fun _ => rfl
  successes_eq := fun _ => rfl

/-! ### Rolling keeps the refinement -/

/-- A slice already passed by `steps ≥ 1` cleared buckets is no longer live. -/
theorem not_live_of_cleared {E e q i k : Nat} (he : e ≤ E) (h1 : 1 ≤ i) (hiq : i ≤ q)
    (hik : (E % BUCKETS + i) % BUCKETS = k) (hek : e % BUCKETS = k) : ¬ E + q < e + BUCKETS := by
  unfold BUCKETS at *
  omega

/-- A live slice whose bucket the loop did not clear stays live after the roll. -/
theorem live_of_not_cleared {E e q k : Nat} (he : e ≤ E)
    (hnc : ∀ i, 1 ≤ i → i ≤ q → (E % BUCKETS + i) % BUCKETS ≠ k) (hek : e % BUCKETS = k)
    (hlive : E < e + BUCKETS) : E + q < e + BUCKETS := by
  by_contra hfar
  -- the step that landed on `e`'s residue
  exact hnc (e + BUCKETS - E) (by omega) (by omega) (by unfold BUCKETS at *; omega)

namespace Refines

variable {w : SuccessRateWindow} {a : ExactWindow}

theorem width_pos (h : Refines w a) : 0 < a.width :=
  h.width_eq ▸ lt_of_lt_of_le (by decide) w.min_width_le

theorem max_width_eq (h : Refines w a) : max w.bucket_width 1 = a.width := by
  rw [h.width_eq]
  exact max_eq_left h.width_pos

/-- The whole widths elapsed since `last_roll` are the slices `now` is ahead of the current one. -/
theorem elapsed_div (h : Refines w a) (now : Nat) :
    (now - w.last_roll) / max w.bucket_width 1 = a.slotOf now - a.slot := by
  rw [h.max_width_eq, h.last_roll_eq, Nat.sub_add_eq, Nat.mul_comm a.slot a.width,
    Nat.sub_mul_div]
  rfl

/-- The elapsed time less its sub-width remainder is a whole number of widths. -/
theorem elapsed_sub_mod (h : Refines w a) (now : Nat) :
    (now - w.last_roll) - (now - w.last_roll) % max w.bucket_width 1 =
      a.width * (a.slotOf now - a.slot) := by
  rw [← h.elapsed_div now, h.max_width_eq]
  have := Nat.div_add_mod (now - w.last_roll) a.width
  omega

/-- What one roll does to bucket `k`: either it is cleared and holds no sample that is still
    live, or it is kept and holds the same live samples as before. -/
theorem rolled_bucket (h : Refines w a) {now : Nat} (hne : w.steps now ≠ 0)
    (hq : w.steps now = a.slotOf now - a.slot) (k : Fin BUCKETS) :
    ((w.roll now).buckets k = Bucket.empty ∧
        ∀ p ∈ a.samples, inBucket (a.advance now) k p = false) ∨
      ((w.roll now).buckets k = w.buckets k ∧
        ∀ p ∈ a.samples, inBucket (a.advance now) k p = inBucket a k p) := by
  have hslot : (a.advance now).slot = a.slot + w.steps now := by
    simp only [ExactWindow.advance]
    omega
  rw [SuccessRateWindow.roll_buckets hne]
  by_cases hbig : BUCKETS ≤ w.steps now
  · -- a gap of a whole window: every bucket is cleared, every sample has expired
    refine .inl ⟨by rw [if_pos hbig], fun p hp => ?_⟩
    have := h.samples_le p hp
    simp only [inBucket, ExactWindow.live, hslot, Bool.and_eq_false_iff, decide_eq_false_iff_not]
    right
    omega
  · rw [if_neg hbig]
    by_cases hc : SuccessRateWindow.Cleared w.current (w.steps now) k
    · refine .inl ⟨SuccessRateWindow.clearSteps_of_cleared _ hc, fun p hp => ?_⟩
      obtain ⟨i, h1, hiq, hik⟩ := hc
      rw [h.current_eq] at hik
      simp only [inBucket, ExactWindow.live, hslot, Bool.and_eq_false_iff, decide_eq_false_iff_not]
      by_cases hek : p.2 % BUCKETS = k.val
      · exact .inr (not_live_of_cleared (h.samples_le p hp) h1 hiq hik hek)
      · exact .inl hek
    · refine .inr ⟨SuccessRateWindow.clearSteps_of_not_cleared _ hc, fun p hp => ?_⟩
      have hnc : ∀ i, 1 ≤ i → i ≤ w.steps now → (a.slot % BUCKETS + i) % BUCKETS ≠ k.val := by
        intro i h1 hiq hik
        exact hc ⟨i, h1, hiq, h.current_eq ▸ hik⟩
      simp only [inBucket, ExactWindow.live, hslot]
      by_cases hek : p.2 % BUCKETS = k.val
      · have hle := h.samples_le p hp
        have hiff : a.slot + w.steps now < p.2 + BUCKETS ↔ a.slot < p.2 + BUCKETS :=
          ⟨fun h' => by omega, live_of_not_cleared hle hnc hek⟩
        simp [hek, hiff]
      · simp [hek]

/-- **Roll step.**  Rolling the ring to `now` refines moving the exact window's slot to the slice
    of `now`, provided the step count (at most the slice of `now`) fits a `usize`. -/
theorem roll (h : Refines w a) (now : Nat) (hgap : a.slotOf now + BUCKETS < USIZE_MOD) :
    Refines (w.roll now) (a.advance now) := by
  have hsteps : (now - w.last_roll) / max w.bucket_width 1 % USIZE_MOD = a.slotOf now - a.slot := by
    rw [h.elapsed_div now]
    exact Nat.mod_eq_of_lt (by omega)
  have hq : w.steps now = a.slotOf now - a.slot := hsteps
  by_cases h0 : a.slotOf now - a.slot = 0
  · -- no whole width has passed: the ring and the slot stay put
    have ha : a.advance now = a := by
      simp only [ExactWindow.advance]
      rw [max_eq_left (by omega)]
    rw [SuccessRateWindow.roll_of_steps_eq_zero (hq.trans h0), ha]
    exact h
  · have hne : w.steps now ≠ 0 := hq ▸ h0
    have hslot : (a.advance now).slot = a.slot + (a.slotOf now - a.slot) := by
      simp only [ExactWindow.advance]
      omega
    have hsamples : (a.advance now).samples = a.samples := rfl
    refine ⟨by simp [h.width_eq, ExactWindow.advance], ?_, ?_, ?_, ?_, ?_⟩
    · rw [SuccessRateWindow.roll_last_roll hne, h.elapsed_sub_mod now, h.last_roll_eq, hslot]
      simp only [ExactWindow.advance]
      ring
    · have hlt : a.slot % BUCKETS + (a.slotOf now - a.slot) < USIZE_MOD := by
        have : a.slot % BUCKETS < BUCKETS := Nat.mod_lt _ (by decide)
        omega
      rw [SuccessRateWindow.roll_current hne, hq, hslot, h.current_eq, Nat.mod_eq_of_lt hlt,
        Nat.mod_add_mod]
    · intro p hp
      rw [hslot]
      have := h.samples_le p (hsamples ▸ hp)
      omega
    · intro k
      rcases h.rolled_bucket hne hq k with ⟨hb, hout⟩ | ⟨hb, hsame⟩
      · rw [hb, hsamples, (List.countP_eq_zero).mpr (fun p hp => by simp [hout p hp])]
        rfl
      · rw [hb, h.total_eq k, hsamples]
        exact List.countP_congr (fun p hp => by rw [hsame p hp])
    · intro k
      rcases h.rolled_bucket hne hq k with ⟨hb, hout⟩ | ⟨hb, hsame⟩
      · rw [hb, hsamples, (List.countP_eq_zero).mpr (fun p hp => by simp [hout p hp])]
        rfl
      · rw [hb, h.successes_eq k, hsamples]
        exact List.countP_congr (fun p hp => by rw [hsame p hp])

/-- `saturating_add(1)` is exact below `u32::MAX`. -/
theorem saturatingInc_of_lt {x : Nat} (h : x + 1 ≤ U32_MAX) : saturatingInc x = x + 1 :=
  min_eq_left h

/-- A sample in the current bucket is a sample of the current slice. -/
theorem countP_inBucket_current (h : Refines w a) :
    a.samples.countP (inBucket a w.current) = (a.samples.map Prod.snd).count a.slot := by
  rw [List.count, List.countP_map]
  refine List.countP_congr (fun p hp => ?_)
  have hle := h.samples_le p hp
  have hc := h.current_eq
  simp only [inBucket, ExactWindow.live, Bool.and_eq_true, decide_eq_true_eq, Function.comp,
    beq_iff_eq]
  unfold BUCKETS at *
  omega

/-- The new sample lands in the current bucket and in no other. -/
theorem inBucket_new (h : Refines w a) (s : Bool) (k : Fin BUCKETS) :
    inBucket a k (s, a.slot) = decide (k = w.current) := by
  have hlive : a.slot < a.slot + BUCKETS := by unfold BUCKETS; omega
  simp only [inBucket, ExactWindow.live, hlive, decide_true, Bool.and_true, Fin.ext_iff,
    h.current_eq]
  exact decide_eq_decide.mpr eq_comm

/-- **Record step.**  Recording a sample keeps the refinement, provided the step count fits a
    `usize` and the sample's slice holds fewer than `u32::MAX` samples before it. -/
theorem record (h : Refines w a) (success : Bool) (now : Nat)
    (hgap : a.slotOf now + BUCKETS < USIZE_MOD)
    (hsat : ((a.advance now).samples.map Prod.snd).count (a.advance now).slot + 1 ≤ U32_MAX) :
    Refines (w.record success now) (a.record success now) := by
  have h' := h.roll now hgap
  have hcur := h'.countP_inBucket_current
  -- the counts of the current bucket stay below the `u32` ceiling
  have htot : (((w.roll now).buckets (w.roll now).current).total) + 1 ≤ U32_MAX := by
    rw [h'.total_eq, hcur]
    exact hsat
  have hsucc : (((w.roll now).buckets (w.roll now).current).successes) + 1 ≤ U32_MAX := by
    have hle : (a.advance now).samples.countP (fun p => p.1 && inBucket (a.advance now) (w.roll now).current p)
        ≤ (a.advance now).samples.countP (inBucket (a.advance now) (w.roll now).current) :=
      List.countP_mono_left (fun p _ hp => by simp only [Bool.and_eq_true] at hp; exact hp.2)
    rw [h'.successes_eq]
    rw [h'.total_eq] at htot
    omega
  have hbucket : ∀ k, inBucket (a.record success now) k = inBucket (a.advance now) k := fun _ => rfl
  refine ⟨h'.width_eq, h'.last_roll_eq, h'.current_eq, ?_, ?_, ?_⟩
  · intro p hp
    rw [ExactWindow.record_samples, List.mem_append, List.mem_singleton] at hp
    rcases hp with hp | rfl
    · exact h'.samples_le p hp
    · exact le_refl _
  · intro k
    rw [SuccessRateWindow.record_buckets, hbucket, ExactWindow.record_samples, List.countP_append,
      List.countP_singleton, h'.inBucket_new]
    by_cases hk : k = (w.roll now).current
    · subst hk
      rw [Function.update_self, saturatingInc_of_lt htot, h'.total_eq]
      simp
    · rw [Function.update_of_ne hk, h'.total_eq]
      simp [hk]
  · intro k
    rw [SuccessRateWindow.record_buckets, hbucket, ExactWindow.record_samples, List.countP_append,
      List.countP_singleton, h'.inBucket_new]
    by_cases hk : k = (w.roll now).current
    · subst hk
      rw [Function.update_self, h'.successes_eq]
      cases success
      · simp
      · simp [saturatingInc_of_lt (h'.successes_eq _ ▸ hsucc)]
    · rw [Function.update_of_ne hk, h'.successes_eq]
      simp [hk]

end Refines

/-- Summing a per-bucket count over the ring counts every live sample exactly once. -/
theorem sum_countP_inBucket (a : ExactWindow) (q : Bool × Nat → Bool) (l : List (Bool × Nat)) :
    ∑ k, l.countP (fun p => q p && inBucket a k p) = l.countP (fun p => q p && a.live p) := by
  induction l with
  | nil => simp
  | cons x l ih =>
    simp only [List.countP_cons, Finset.sum_add_distrib, ih]
    congr 1
    -- only the bucket of `x`'s residue can count `x`
    rw [Finset.sum_eq_single ⟨x.2 % BUCKETS, Nat.mod_lt _ (by decide)⟩]
    · simp [inBucket]
    · intro k _ hk
      have hne : x.2 % BUCKETS ≠ k.val := fun h => hk (Fin.ext h.symm)
      simp [inBucket, hne]
    · simp

/-- The ring's totals are the exact window's live counts. -/
theorem Refines.totals_eq {w : SuccessRateWindow} {a : ExactWindow} (h : Refines w a) :
    w.totals = a.totals := by
  have hs := sum_countP_inBucket a (fun p => p.1) a.samples
  have ht := sum_countP_inBucket a (fun _ => true) a.samples
  simp only [Bool.true_and] at ht
  simp only [SuccessRateWindow.totals, ExactWindow.totals, h.total_eq, h.successes_eq, hs, ht]

/-- Samples only accumulate: every intermediate sample list is a prefix of the final one. -/
theorem ExactWindow.samples_prefix_feed (a : ExactWindow) (rs : List (Bool × Nat)) :
    a.samples <+: (a.feed rs).samples := by
  induction rs generalizing a with
  | nil => exact List.prefix_refl _
  | cons r rs ih => exact (List.prefix_append _ _).trans (ih (a.record r.1 r.2))

theorem ExactWindow.feed_anchor_width (a : ExactWindow) (rs : List (Bool × Nat)) :
    (a.feed rs).anchor = a.anchor ∧ (a.feed rs).width = a.width := by
  induction rs generalizing a with
  | nil => exact ⟨rfl, rfl⟩
  | cons r rs ih => exact ih (a.record r.1 r.2)

/-- **Run refinement.**  Feeding the ring and the exact window the same schedule keeps them
    related, as long as every timestamp lies less than `2 ^ 64 - BUCKETS` widths past the anchor
    and no slice receives more than `u32::MAX` samples. -/
theorem Refines.feed {w : SuccessRateWindow} {a : ExactWindow} (h : Refines w a)
    (rs : List (Bool × Nat)) (hgap : ∀ r ∈ rs, a.slotOf r.2 + BUCKETS < USIZE_MOD)
    (hsat : ∀ e, ((a.feed rs).samples.map Prod.snd).count e ≤ U32_MAX) :
    Refines (w.feed rs) (a.feed rs) := by
  induction rs generalizing w a with
  | nil => exact h
  | cons r rs ih =>
    -- the slice of the new sample stays within the bound in the final sample list
    have hpre := ExactWindow.samples_prefix_feed (a.record r.1 r.2) rs
    have hcount := (hpre.map Prod.snd).count_le (a.advance r.2).slot
    have hsat₁ : ((a.advance r.2).samples.map Prod.snd).count (a.advance r.2).slot + 1 ≤ U32_MAX := by
      rw [ExactWindow.record_samples, List.map_append, List.count_append] at hcount
      simp only [List.map_cons, List.map_nil, List.count_singleton_self] at hcount
      exact le_trans hcount (hsat _)
    exact ih (h.record r.1 r.2 (hgap r List.mem_cons_self) hsat₁)
      (fun r' hr' => hgap r' (List.mem_cons_of_mem r hr')) hsat

/-- **Refinement of the exact sliding window.**  From a fresh window anchored at `t₀` (`new`, or
    any window right after `reset(t₀)`), after any schedule of `record` calls whose timestamps lie
    less than `2 ^ 64 - BUCKETS` widths past `t₀` and that charge no slice more than `u32::MAX`
    samples, `totals()` are the live counts of the exact window, `last_roll` is the start of the
    current slice and `current` its residue. -/
theorem record_refines_exact (window t₀ : Nat) (rs : List (Bool × Nat))
    (hgap : ∀ r ∈ rs, (r.2 - t₀) / SuccessRateWindow.widthOf window + BUCKETS < USIZE_MOD)
    (hsat : ∀ e, (((ExactWindow.fresh window t₀).feed rs).samples.map Prod.snd).count e ≤ U32_MAX) :
    ((SuccessRateWindow.new window t₀).feed rs).totals = ((ExactWindow.fresh window t₀).feed rs).totals ∧
      ((SuccessRateWindow.new window t₀).feed rs).last_roll =
        t₀ + ((ExactWindow.fresh window t₀).feed rs).slot * SuccessRateWindow.widthOf window ∧
      ((SuccessRateWindow.new window t₀).feed rs).current.val =
        ((ExactWindow.fresh window t₀).feed rs).slot % BUCKETS := by
  have h := (refines_fresh window t₀).feed rs hgap hsat
  obtain ⟨hanchor, hwidth⟩ := (ExactWindow.fresh window t₀).feed_anchor_width rs
  refine ⟨h.totals_eq, ?_, h.current_eq⟩
  rw [h.last_roll_eq, hanchor, hwidth]
  rfl

/-- A failure and, three buckets later, a success in the smallest window. -/
theorem record_refines_exact_three_buckets :
    let rs : List (Bool × Nat) := [(false, 0), (true, 3 * MIN_BUCKET_WIDTH)]
    ((SuccessRateWindow.new MIN_WINDOW 0).feed rs).totals =
        ((ExactWindow.fresh MIN_WINDOW 0).feed rs).totals ∧
      ((SuccessRateWindow.new MIN_WINDOW 0).feed rs).last_roll =
        0 + ((ExactWindow.fresh MIN_WINDOW 0).feed rs).slot * SuccessRateWindow.widthOf MIN_WINDOW ∧
      ((SuccessRateWindow.new MIN_WINDOW 0).feed rs).current.val =
        ((ExactWindow.fresh MIN_WINDOW 0).feed rs).slot % BUCKETS :=
  record_refines_exact MIN_WINDOW 0 [(false, 0), (true, 3 * MIN_BUCKET_WIDTH)] (by decide)
    fun _ => le_trans List.count_le_length (by decide)

end LinkerdProxy.Breaker
