import LinkerdProxy.Breaker.Task

namespace LinkerdProxy.Breaker

/-!
# The unified circuit breaker

`UnifiedBreaker` (`http/breaker/unified.rs`) trips on either of two conditions: a run of
consecutive failures, or a windowed success rate below a threshold.  Its open loop is
`UnifiedBreaker.openStep`; the task around it is the shared `breakerStep`.

* `UnifiedBreaker.tripSpec` — the trip condition in terms of the responses of one open phase;
* `UnifiedBreaker.should_trip_feed` — the breaker's counters compute it: the consecutive count
  is the length of the trailing run of failures, the window is the phase's responses;
* `UnifiedBreaker.reopen_eq_freshState` — on every reachable recovery the state is reset to a
  fresh one, so nothing of an earlier phase or of the shut period survives;
* `UnifiedBreaker.trip_law` — every open phase trips at the first response at which `tripSpec`
  holds, with the reason it names.
-/

/-- Reason a circuit breaker tripped (`TripReason`). -/
inductive TripReason where
  | consecutiveFailures
  | lowSuccessRate
  deriving DecidableEq, Repr

/-- `usize::MAX`. -/
def USIZE_MAX : Nat := USIZE_MOD - 1

/-- The `f64` success-rate threshold, seen through the two comparisons the breaker makes with it:
    `threshold > 0.0` and `successes as f64 / total as f64 < threshold`. -/
structure Threshold where
  active : Bool
  below : Nat → Nat → Bool

/-- The configuration of a unified breaker (`UnifiedBreaker`'s fields other than its channels);
    `max_failures` is a `usize`. -/
structure UnifiedBreaker where
  max_failures : Nat
  threshold : Threshold
  window : Nat
  backoff : ExponentialBackoff
  min_requests : Nat
  max_failures_le : max_failures ≤ USIZE_MAX

/-- `is_rate_limit_signal`: HTTP 429 or gRPC `RESOURCE_EXHAUSTED`. -/
def isRateLimitSignal : Class → Bool
  | .http (.ok status) => status == TOO_MANY_REQUESTS
  | .grpc (.ok code) => code == .resourceExhausted
  | _ => false

/-- A response degrades the success rate when it fails or signals a rate limit. -/
def degradesSuccessRate (c : Class) : Bool := c.isFailure || isRateLimitSignal c

/-- Internal state tracked during the open phase (`OpenState`). -/
structure OpenState where
  consecutive_failures : Nat
  success_rate : Option SuccessRateWindow

namespace OpenState

/-- `OpenState::new`: no failures, and a fresh window only when the dimension is active. -/
def new (active : Bool) (window now : Nat) : OpenState :=
  ⟨0, if active then some (SuccessRateWindow.new window now) else none⟩

/-- `OpenState::reset`. -/
def reset (st : OpenState) (now : Nat) : OpenState :=
  ⟨0, st.success_rate.map (·.reset now)⟩

end OpenState

namespace UnifiedBreaker

variable (b : UnifiedBreaker)

/-- `success_rate_active`: a zero threshold turns the success-rate dimension off. -/
def successRateActive : Bool := b.threshold.active

/-- `usize::saturating_add(1)`. -/
def saturatingIncUsize (x : Nat) : Nat := min (x + 1) USIZE_MAX

/-- The bookkeeping of one response in `open`: the consecutive count (when that dimension is on)
    and the window (when it exists). -/
def observe (st : OpenState) (c : Class) (now : Nat) : OpenState :=
  let is_configured_failure := !c.isSuccess
  { consecutive_failures :=
      if 0 < b.max_failures then
        if is_configured_failure then saturatingIncUsize st.consecutive_failures else 0
      else st.consecutive_failures
    success_rate := st.success_rate.map (·.record (!degradesSuccessRate c) now) }

/-- `should_trip`: consecutive failures first, then the success-rate window. -/
def shouldTrip (st : OpenState) : Option TripReason :=
  let consecutive : Option TripReason :=
    -- a zero `max_failures` disables the consecutive failure policy entirely
    if b.max_failures = 0 then none
    else if b.max_failures ≤ st.consecutive_failures then some .consecutiveFailures
    else none
  match consecutive with
  | some reason => some reason
  | none =>
    match st.success_rate with
    | some w => if w.shouldTrip b.min_requests b.threshold.below then some .lowSuccessRate else none
    | none => none

/-- `is_probe_success`: a rate-limit signal fails the probe, otherwise the classifier decides. -/
def isProbeSuccess (c : Class) : Bool :=
  if isRateLimitSignal c then false else c.isSuccess

/-- One response of `open`'s loop: record it, then return the trip reason if there is one;
    `closed` carries the state and the reason. -/
def openStep (st : OpenState) (c : Class) (now : Nat) : OpenState ⊕ (OpenState × TripReason) :=
  let st := b.observe st c now
  match b.shouldTrip st with
  | none => .inl st
  | some reason => .inr (st, reason)

/-- After `closed` returns `Ok(())`, `run` calls `state.reset(Instant::now())`. -/
def reopen (x : OpenState × TripReason) (now : Nat) : OpenState := x.1.reset now

/-- The breaker task: `run` with this breaker's open loop and probe test. -/
def step : State OpenState (OpenState × TripReason) → Event →
    State OpenState (OpenState × TripReason) × List GateState :=
  breakerStep b.openStep reopen isProbeSuccess b.backoff.stream

def machine : Machine (State OpenState (OpenState × TripReason)) Event GateState := ⟨b.step⟩

@[simp] theorem machine_step : b.machine.step = b.step := rfl

/-- The state `run` builds: `OpenState::new(self.success_rate_active(), self.window, now)`. -/
def freshState (now : Nat) : OpenState := OpenState.new b.successRateActive b.window now

/-- The task as `run` starts it, once `open` has opened the (already open) gate. -/
def init (now : Nat) : State OpenState (OpenState × TripReason) :=
  ⟨.open (b.freshState now), ⟨.open, false⟩⟩

/-! ### The trip condition of one open phase -/

/-- The length of the run of failures that ends `cs`: the count `open` keeps. -/
def failureRun (cs : List Class) : Nat :=
  cs.foldl (fun k c => if c.isFailure then k + 1 else 0) 0

/-- The last `n` responses of `cs` all failed. -/
def LastFailures (n : Nat) (cs : List Class) : Prop :=
  n ≤ cs.length ∧ ∀ c ∈ cs.drop (cs.length - n), c.isFailure = true

instance (n : Nat) (cs : List Class) : Decidable (LastFailures n cs) :=
  inferInstanceAs (Decidable (_ ∧ _))

theorem failureRun_append_singleton (cs : List Class) (c : Class) :
    failureRun (cs ++ [c]) = if c.isFailure then failureRun cs + 1 else 0 := by
  simp [failureRun, List.foldl_append]

/-- The last `n` responses failed exactly when the trailing run of failures is `n` long. -/
theorem lastFailures_iff (n : Nat) (cs : List Class) : LastFailures n cs ↔ n ≤ failureRun cs := by
  induction cs using List.reverseRecOn generalizing n with
  | nil => cases n <;> simp [LastFailures, failureRun]
  | append_singleton cs c ih =>
    cases n with
    | zero => simp [LastFailures]
    | succ m =>
      rw [failureRun_append_singleton]
      by_cases hm : m ≤ cs.length
      · -- the last `m + 1` responses are the last `m` of `cs`, then `c`
        have hdrop : (cs ++ [c]).drop ((cs ++ [c]).length - (m + 1)) =
            cs.drop (cs.length - m) ++ [c] := by
          rw [List.length_append, List.length_singleton, Nat.add_sub_add_right]
          exact List.drop_append_of_le_length (by omega)
        have hlast : LastFailures (m + 1) (cs ++ [c]) ↔ LastFailures m cs ∧ c.isFailure = true := by
          unfold LastFailures
          rw [hdrop]
          simp only [List.mem_append, List.mem_singleton, List.length_append,
            List.length_singleton]
          constructor
          · rintro ⟨-, h⟩
            exact ⟨⟨hm, fun x hx => h x (Or.inl hx)⟩, h c (Or.inr rfl)⟩
          · rintro ⟨⟨-, h⟩, hc⟩
            refine ⟨by omega, fun x hx => ?_⟩
            rcases hx with hx | rfl
            · exact h x hx
            · exact hc
        rw [hlast, ih m]
        split <;> simp_all
      · -- fewer than `m` responses came before `c`: neither side holds
        have hrun : ¬m ≤ failureRun cs := fun h => hm ((ih m).mpr h).1
        have hlast : ¬LastFailures (m + 1) (cs ++ [c]) := fun h => by
          have := h.1
          simp only [List.length_append, List.length_singleton] at this
          omega
        simp only [hlast, false_iff]
        split <;> omega

/-- The window of an open phase begun at `t₁` after the responses `cs`, each recorded as a
    success unless it degrades the success rate. -/
def phaseWindow (t₁ : Nat) (cs : List (Class × Nat)) : SuccessRateWindow :=
  (SuccessRateWindow.new b.window t₁).feed (cs.map fun r => (!degradesSuccessRate r.1, r.2))

/-- The trip condition of an open phase begun at `t₁` that has received the responses `cs`:
    the last `max_failures` of them failed, or else the success-rate dimension is active and the
    phase's window holds at least `max(min_requests, 1)` samples with a rate below the
    threshold. -/
def tripSpec (t₁ : Nat) (cs : List (Class × Nat)) : Option TripReason :=
  if 0 < b.max_failures ∧ LastFailures b.max_failures (cs.map Prod.fst) then
    some .consecutiveFailures
  else if b.threshold.active = true ∧ max b.min_requests 1 ≤ (b.phaseWindow t₁ cs).totals.2 ∧
      b.threshold.below (b.phaseWindow t₁ cs).totals.1 (b.phaseWindow t₁ cs).totals.2 = true then
    some .lowSuccessRate
  else none

/-- The open state after the responses `cs`, one `observe` each. -/
def feed (st : OpenState) (cs : List (Class × Nat)) : OpenState :=
  cs.foldl (fun st r => b.observe st r.1 r.2) st

theorem feed_append_singleton (st : OpenState) (cs : List (Class × Nat)) (r : Class × Nat) :
    b.feed st (cs ++ [r]) = b.observe (b.feed st cs) r.1 r.2 := by
  simp [feed, List.foldl_append]

theorem phaseWindow_append_singleton (t₁ : Nat) (cs : List (Class × Nat)) (r : Class × Nat) :
    b.phaseWindow t₁ (cs ++ [r]) =
      (b.phaseWindow t₁ cs).record (!degradesSuccessRate r.1) r.2 := by
  simp [phaseWindow, SuccessRateWindow.feed, List.foldl_append]

/-- The consecutive count after a phase's responses is their trailing run of failures
    (saturated at `usize::MAX`), when that dimension is on. -/
theorem feed_consecutive_failures (t₁ : Nat) (cs : List (Class × Nat)) :
    (b.feed (b.freshState t₁) cs).consecutive_failures =
      if 0 < b.max_failures then min (failureRun (cs.map Prod.fst)) USIZE_MAX else 0 := by
  induction cs using List.reverseRecOn with
  | nil => simp [feed, freshState, OpenState.new, failureRun]
  | append_singleton cs r ih =>
    rw [feed_append_singleton, List.map_append, List.map_singleton, failureRun_append_singleton]
    simp only [observe, Class.isSuccess, Bool.not_not]
    by_cases hn : 0 < b.max_failures
    · simp only [hn, if_true] at ih ⊢
      by_cases hf : r.1.isFailure = true
      · simp only [hf, if_true, saturatingIncUsize, ih]
        omega
      · simp [hf]
    · simp [hn, ih]

/-- The window after a phase's responses is the phase's window, when the dimension is
    active. -/
theorem feed_success_rate (t₁ : Nat) (cs : List (Class × Nat)) :
    (b.feed (b.freshState t₁) cs).success_rate =
      if b.threshold.active then some (b.phaseWindow t₁ cs) else none := by
  induction cs using List.reverseRecOn with
  | nil =>
    cases h : b.threshold.active <;>
      simp [feed, freshState, OpenState.new, successRateActive, phaseWindow,
        SuccessRateWindow.feed, h]
  | append_singleton cs r ih =>
    rw [feed_append_singleton, phaseWindow_append_singleton]
    simp only [observe, ih]
    cases b.threshold.active <;> simp

/-- **The counters compute the trip condition.**  After the responses `cs` of a phase begun at
    `t₁`, `should_trip` is `tripSpec t₁ cs`. -/
theorem should_trip_feed (t₁ : Nat) (cs : List (Class × Nat)) :
    b.shouldTrip (b.feed (b.freshState t₁) cs) = b.tripSpec t₁ cs := by
  have hle := b.max_failures_le
  -- the consecutive dimension: `max_failures ≤ min(run, usize::MAX)` is `LastFailures`
  have hcons : (b.max_failures ≠ 0 ∧ b.max_failures ≤ (b.feed (b.freshState t₁) cs).consecutive_failures) ↔
      (0 < b.max_failures ∧ LastFailures b.max_failures (cs.map Prod.fst)) := by
    rw [feed_consecutive_failures, lastFailures_iff]
    by_cases hn : 0 < b.max_failures
    · simp only [hn, if_true, true_and]
      constructor
      · rintro ⟨-, h⟩
        exact le_trans h (min_le_left _ _)
      · intro h
        exact ⟨by omega, le_min h hle⟩
    · simp only [hn, if_false, false_and, iff_false]
      omega
  unfold shouldTrip tripSpec
  rw [feed_success_rate]
  by_cases hc : 0 < b.max_failures ∧ LastFailures b.max_failures (cs.map Prod.fst)
  · have h := hcons.mpr hc
    simp [hc, h.1, h.2]
  · have h : ¬(b.max_failures ≠ 0 ∧
        b.max_failures ≤ (b.feed (b.freshState t₁) cs).consecutive_failures) := fun h => hc (hcons.mp h)
    rw [if_neg hc]
    have hnone : (if b.max_failures = 0 then none
        else if b.max_failures ≤ (b.feed (b.freshState t₁) cs).consecutive_failures then
          some TripReason.consecutiveFailures else none) = none := by
      split
      · rfl
      · rw [if_neg (fun h' => h ⟨‹_›, h'⟩)]
    simp only [hnone]
    cases ha : b.threshold.active
    · simp
    · simp [SuccessRateWindow.should_trip_iff]

/-- With `max_failures = 0` and a zero threshold no sequence of responses trips. -/
theorem tripSpec_of_disabled (h₀ : b.max_failures = 0) (hth : b.threshold.active = false)
    (t₁ : Nat) (cs : List (Class × Nat)) : b.tripSpec t₁ cs = none := by
  simp [tripSpec, h₀, hth]

/-! ### Every open phase starts fresh -/

/-- The window of an open state has the width `new` gives it, and exists exactly when the
    success-rate dimension is active. -/
def Shaped (st : OpenState) : Prop :=
  st.success_rate.map (·.bucket_width) =
    if b.successRateActive then some (SuccessRateWindow.widthOf b.window) else none

/-- Every open state the task holds, in any phase, is shaped. -/
def PhaseShaped (s : State OpenState (OpenState × TripReason)) : Prop :=
  match s.phase with
  | .open st => b.Shaped st
  | .shut x _ | .probation x _ => b.Shaped x.1
  | .done => True

theorem shaped_freshState (now : Nat) : b.Shaped (b.freshState now) := by
  cases h : b.threshold.active <;>
    simp [Shaped, freshState, OpenState.new, successRateActive, h]

theorem shaped_observe {st : OpenState} (h : b.Shaped st) (c : Class) (now : Nat) :
    b.Shaped (b.observe st c now) := by
  unfold Shaped at h ⊢
  rw [← h]
  simp [observe, Option.map_map, Function.comp_def]

/-- A reset shaped state is the fresh state `run` would build at that instant. -/
theorem reset_of_shaped {st : OpenState} (h : b.Shaped st) (now : Nat) :
    st.reset now = b.freshState now := by
  obtain ⟨cf, sr⟩ := st
  unfold Shaped successRateActive at h
  cases sr with
  | none =>
    cases ha : b.threshold.active
    · simp [OpenState.reset, freshState, OpenState.new, successRateActive, ha]
    · simp [ha] at h
  | some w =>
    cases ha : b.threshold.active
    · simp [ha] at h
    · simp only [ha, if_true, Option.map_some, Option.some.injEq] at h
      simp [OpenState.reset, freshState, OpenState.new, successRateActive, ha,
        SuccessRateWindow.reset_eq_new_of_width h]

theorem openStep_inl {st st' : OpenState} {c : Class} {now : Nat}
    (h : b.openStep st c now = .inl st') :
    st' = b.observe st c now ∧ b.shouldTrip (b.observe st c now) = none := by
  simp only [openStep] at h
  split at h
  · rename_i hs
    exact ⟨(Sum.inl.inj h).symm, hs⟩
  · cases h

theorem openStep_inr {st : OpenState} {x : OpenState × TripReason} {c : Class} {now : Nat}
    (h : b.openStep st c now = .inr x) :
    x.1 = b.observe st c now ∧ b.shouldTrip (b.observe st c now) = some x.2 := by
  simp only [openStep] at h
  split at h
  · cases h
  · rename_i reason hs
    obtain rfl := Sum.inr.inj h
    exact ⟨rfl, hs⟩

theorem phaseShaped_step (s : State OpenState (OpenState × TripReason)) (e : Event)
    (h : b.PhaseShaped s) : b.PhaseShaped (b.step s e).1 := by
  rcases breakerStep_cases b.openStep reopen isProbeSuccess b.backoff.stream s e rfl with
    ⟨-, -, hph | hph | ⟨st, c, st', hs, -, ho, hph⟩⟩ | ⟨-, -, x, bs, hr, hfrom⟩ |
    ⟨-, -, -, x, bs, hs, -, hr⟩ | ⟨-, -, x, bs, c, hs, -, -, hr⟩
  · unfold PhaseShaped
    rw [step, hph]
    exact h
  · unfold PhaseShaped
    rw [step, hph]
    trivial
  · -- the open loop carries on
    unfold PhaseShaped at h ⊢
    rw [hs] at h
    rw [step, hph, (b.openStep_inl ho).1]
    exact b.shaped_observe h c e.now
  · -- the gate shuts, carrying the tripped state or the probation's
    unfold PhaseShaped at h ⊢
    rw [step, hr]
    dsimp only
    rcases hfrom with ⟨st, c, hs, -, ho, -⟩ | ⟨c, hs, -, -⟩
    · rw [hs] at h
      rw [(b.openStep_inr ho).1]
      exact b.shaped_observe h c e.now
    · rw [hs] at h
      exact h
  · unfold PhaseShaped at h ⊢
    rw [hs] at h
    rw [step, hr]
    exact h
  · -- a passed probe resets the carried state
    unfold PhaseShaped at h ⊢
    rw [hs] at h
    rw [step, hr]
    show b.Shaped (x.1.reset e.now)
    rw [b.reset_of_shaped h]
    exact b.shaped_freshState e.now

theorem phaseShaped_of_reachable (t₀ : Nat) {s : State OpenState (OpenState × TripReason)}
    (hs : b.machine.Reachable (fun _ => True) (b.init t₀) s) : b.PhaseShaped s :=
  Machine.reachable_invariant b.machine (fun _ => True) b.PhaseShaped
    (show b.PhaseShaped (b.init t₀) from b.shaped_freshState t₀)
    (fun s e _ h => b.phaseShaped_step s e h) hs

/-- **Recovery resets.**  Whenever a reachable task re-enters `open`, it does so with the fresh
    state `run` would build at that instant. -/
theorem reopen_eq_freshState (t₀ : Nat) (s : State OpenState (OpenState × TripReason))
    (hs : b.machine.Reachable (fun _ => True) (b.init t₀) s) (e : Event) (st : OpenState)
    (hst : (b.step s e).1.phase = .open st) (hnot : ∀ st', s.phase ≠ .open st') :
    st = b.freshState e.now := by
  have hsh := b.phaseShaped_of_reachable t₀ hs
  rcases breakerStep_cases b.openStep reopen isProbeSuccess b.backoff.stream s e rfl with
    ⟨-, -, hph | hph | ⟨st₀, -, -, hs₀, -, -, -⟩⟩ | ⟨-, -, x, bs, hr, -⟩ |
    ⟨-, -, -, x, bs, -, -, hr⟩ | ⟨-, -, x, bs, c, hs₀, -, -, hr⟩
  · rw [step, hph] at hst
    exact absurd hst (hnot st)
  · rw [step, hph] at hst
    cases hst
  · exact absurd hs₀ (hnot st₀)
  · rw [step, hr] at hst
    cases hst
  · rw [step, hr] at hst
    cases hst
  · rw [step, hr] at hst
    obtain rfl := Phase.open.inj hst
    unfold PhaseShaped at hsh
    rw [hs₀] at hsh
    exact b.reset_of_shaped hsh e.now

/-! ### The trip law -/

/-- Responses none of which completes a trip leave the task open, with the phase's state fed
    every one of them. -/
theorem run_open (t₁ : Nat) (gate : Tx) :
    ∀ (es : List Event) (pre : List (Class × Nat)), (∀ e ∈ es, ∃ c, e.input = .rsp c) →
      (∀ k < es.length, b.tripSpec t₁ (pre ++ responses (es.take (k + 1))) = none) →
      b.machine.run ⟨.open (b.feed (b.freshState t₁) pre), gate⟩ es =
        (⟨.open (b.feed (b.freshState t₁) (pre ++ responses es)), gate⟩, []) := by
  intro es
  induction es with
  | nil =>
    intro pre _ _
    simp [responses]
  | cons e es ih =>
    intro pre hrsp hno
    obtain ⟨c, hc⟩ := hrsp e (List.mem_cons_self ..)
    -- the first response does not trip: the open loop carries on with it recorded
    have htrip : b.shouldTrip (b.feed (b.freshState t₁) (pre ++ [(c, e.now)])) = none := by
      rw [should_trip_feed]
      simpa [responses_cons_rsp hc] using hno 0 (by simp)
    have hstep : b.step ⟨.open (b.feed (b.freshState t₁) pre), gate⟩ e =
        (⟨.open (b.feed (b.freshState t₁) (pre ++ [(c, e.now)])), gate⟩, []) := by
      obtain ⟨now, input, draw⟩ := e
      simp only at hc htrip
      subst hc
      have hfeed := b.feed_append_singleton (b.freshState t₁) pre (c, now)
      simp only at hfeed
      rw [step, breakerStep_open_rsp]
      simp only [openStep]
      rw [← hfeed, htrip]
    have hno' : ∀ k < es.length,
        b.tripSpec t₁ ((pre ++ [(c, e.now)]) ++ responses (es.take (k + 1))) = none := by
      intro k hk
      have := hno (k + 1) (by simp; omega)
      rwa [List.take_succ_cons, responses_cons_rsp hc, ← List.singleton_append,
        ← List.append_assoc] at this
    rw [Machine.run_cons, machine_step, hstep]
    simp only
    rw [ih (pre ++ [(c, e.now)]) (fun f hf => hrsp f (List.mem_cons_of_mem e hf)) hno',
      responses_cons_rsp hc]
    simp

/-- The response that completes a trip shuts the gate, hands `closed` the fed state and the
    reason, and arms a fresh backoff stream. -/
theorem run_trip (t₁ : Nat) (gate : Tx) (hg : gate.closed = false) (es : List Event)
    (hrsp : ∀ e ∈ es, ∃ c, e.input = .rsp c)
    (hno : ∀ k < es.length, b.tripSpec t₁ (responses (es.take (k + 1))) = none)
    (e : Event) (c : Class) (hc : e.input = .rsp c) (r : TripReason)
    (htrip : b.tripSpec t₁ (responses (es ++ [e])) = some r) :
    b.machine.run ⟨.open (b.freshState t₁), gate⟩ (es ++ [e]) =
      (⟨.shut (b.feed (b.freshState t₁) (responses (es ++ [e])), r)
          (b.backoff.stream.arm e.now e.draw), { gate with state := .shut }⟩, [.shut]) := by
  have hopen : b.machine.run ⟨.open (b.freshState t₁), gate⟩ es =
      (⟨.open (b.feed (b.freshState t₁) (responses es)), gate⟩, []) :=
    b.run_open t₁ gate es [] hrsp (by simpa using hno)
  have hresp : responses (es ++ [e]) = responses es ++ [(c, e.now)] := by
    rw [responses_append, responses_cons_rsp hc]
    rfl
  have hlast : b.step ⟨.open (b.feed (b.freshState t₁) (responses es)), gate⟩ e =
      (⟨.shut (b.feed (b.freshState t₁) (responses (es ++ [e])), r)
          (b.backoff.stream.arm e.now e.draw), { gate with state := .shut }⟩, [.shut]) := by
    rw [← should_trip_feed] at htrip
    rw [hresp] at htrip ⊢
    obtain ⟨now, input, draw⟩ := e
    simp only at hc htrip ⊢
    subst hc
    have hfeed := b.feed_append_singleton (b.freshState t₁) (responses es) (c, now)
    simp only at hfeed
    rw [step, breakerStep_open_rsp]
    simp only [openStep]
    rw [← hfeed, htrip]
    simp [shutGate_eq, hg]
  rw [Machine.run_append, hopen]
  simp [hlast]

/-- **Trip law.**  Every open phase — the first, and every one a passed probe starts — begins
    with the fresh state of its first instant; fed responses with no trip so far, it stays open
    and sets the gate to nothing; and the first response at which `tripSpec` holds shuts the
    gate with the reason `tripSpec` names, arming a fresh backoff stream.  With both
    dimensions off, `tripSpec` never holds. -/
theorem trip_law (b : UnifiedBreaker) (t₀ : Nat) :
    (b.init t₀).phase = .open (b.freshState t₀) ∧
    (∀ s, b.machine.Reachable (fun _ => True) (b.init t₀) s → ∀ e st,
      (b.step s e).1.phase = .open st → (∀ st', s.phase ≠ .open st') →
        st = b.freshState e.now) ∧
    (∀ t₁ gate es, gate.closed = false → (∀ e ∈ es, ∃ c, e.input = .rsp c) →
      (∀ k < es.length, b.tripSpec t₁ (responses (es.take (k + 1))) = none) →
      b.machine.run ⟨.open (b.freshState t₁), gate⟩ es =
          (⟨.open (b.feed (b.freshState t₁) (responses es)), gate⟩, []) ∧
        ∀ e c r, e.input = .rsp c → b.tripSpec t₁ (responses (es ++ [e])) = some r →
          b.machine.run ⟨.open (b.freshState t₁), gate⟩ (es ++ [e]) =
            (⟨.shut (b.feed (b.freshState t₁) (responses (es ++ [e])), r)
                (b.backoff.stream.arm e.now e.draw), { gate with state := .shut }⟩, [.shut])) ∧
    (∀ t₁ cs, b.shouldTrip (b.feed (b.freshState t₁) cs) = b.tripSpec t₁ cs) ∧
    (b.max_failures = 0 → b.threshold.active = false → ∀ t₁ cs, b.tripSpec t₁ cs = none) := by
  refine ⟨rfl, fun s hs e st hst hnot => b.reopen_eq_freshState t₀ s hs e st hst hnot,
    fun t₁ gate es hg hrsp hno => ⟨?_, fun e c r hc htrip => ?_⟩, b.should_trip_feed,
    fun h₀ hth => b.tripSpec_of_disabled h₀ hth⟩
  · exact b.run_open t₁ gate es [] hrsp (by simpa using hno)
  · exact b.run_trip t₁ gate hg es hrsp hno e c hc r htrip

/-! ### A breaker with both dimensions off -/

theorem should_trip_of_disabled (h₀ : b.max_failures = 0) {st : OpenState}
    (hs : st.success_rate = none) : b.shouldTrip st = none := by
  simp [shouldTrip, h₀, hs]

/-- The states of a task whose both dimensions are off: open without a window, or returned. -/
def Idle (s : State OpenState (OpenState × TripReason)) : Prop :=
  s.phase = .done ∨ ∃ st, s.phase = .open st ∧ st.success_rate = none

/-- With both dimensions off the task never leaves `open` but to return, and never sets the
    gate. -/
theorem idle_step (h₀ : b.max_failures = 0) (s : State OpenState (OpenState × TripReason))
    (e : Event) (hs : Idle s) : Idle (b.step s e).1 ∧ (b.step s e).2 = [] := by
  -- an idle task is never shut nor in probation
  have hns : ∀ x bs, s.phase ≠ .shut x bs := by
    intro x bs h
    rcases hs with hs | ⟨st, hs, -⟩ <;> rw [hs] at h <;> cases h
  have hnp : ∀ x bs, s.phase ≠ .probation x bs := by
    intro x bs h
    rcases hs with hs | ⟨st, hs, -⟩ <;> rw [hs] at h <;> cases h
  rcases breakerStep_cases b.openStep reopen isProbeSuccess b.backoff.stream s e rfl with
    ⟨hout, -, hph | hph | ⟨st, c, st', hst, -, ho, hph⟩⟩ | ⟨-, -, x, bs, -, hfrom⟩ |
    ⟨-, -, -, x, bs, hst, -, -⟩ | ⟨-, -, x, bs, c, hst, -, -, -⟩
  · refine ⟨?_, hout⟩
    unfold Idle
    rw [step, hph]
    exact hs
  · exact ⟨Or.inl hph, hout⟩
  · -- the open loop carries on without a window
    refine ⟨Or.inr ⟨st', hph, ?_⟩, hout⟩
    rcases hs with hs | ⟨st₀, hs₀, hsr⟩
    · rw [hs] at hst
      cases hst
    · rw [hs₀] at hst
      obtain rfl := Phase.open.inj hst
      rw [(b.openStep_inl ho).1]
      simp [observe, hsr]
  · -- a trip is impossible: `should_trip` never fires
    rcases hfrom with ⟨st, c, hst, -, ho, -⟩ | ⟨c, hst, -, -⟩
    · have hsr : st.success_rate = none := by
        rcases hs with hs | ⟨st₀, hs₀, hsr⟩
        · rw [hs] at hst
          cases hst
        · rw [hs₀] at hst
          obtain rfl := Phase.open.inj hst
          exact hsr
      have := (b.openStep_inr ho).2
      rw [b.should_trip_of_disabled h₀ (by simp [observe, hsr])] at this
      cases this
    · exact absurd hst (hnp x bs)
  · exact absurd hst (hns x bs)
  · exact absurd hst (hnp x bs)

/-- With `max_failures = 0` and a zero threshold the task never sets the gate. -/
theorem run_of_disabled (h₀ : b.max_failures = 0) (hth : b.threshold.active = false)
    (t₀ : Nat) (es : List Event) : (b.machine.run (b.init t₀) es).2 = [] := by
  have hinit : Idle (b.init t₀) :=
    Or.inr ⟨b.freshState t₀, rfl, by simp [freshState, OpenState.new, successRateActive, hth]⟩
  have h := Machine.run_trace_invariant b.machine (fun _ => True)
    (fun os s => os = [] ∧ Idle s)
    (fun os s e _ h => by
      obtain ⟨rfl, hs⟩ := h
      obtain ⟨hs', hout⟩ := b.idle_step h₀ s e hs
      exact ⟨by simp [hout], hs'⟩)
    es [] (b.init t₀) (fun _ _ => trivial) ⟨rfl, hinit⟩
  simpa using h.1

/-- A breaker tripping after two consecutive failures, with the success rate off, shuts the gate
    at the second failed response. -/
theorem trip_law_two_failures :
    let b : UnifiedBreaker := ⟨2, ⟨false, fun _ _ => false⟩, 0, ⟨1, 1, false⟩, 0, by decide⟩
    b.machine.run ⟨.open (b.freshState 0), ⟨.open, false⟩⟩
        ([⟨1, .rsp (.http (.error 500)), 0⟩] ++ [⟨2, .rsp (.http (.error 500)), 0⟩]) =
      (⟨.shut (b.feed (b.freshState 0) [(.http (.error 500), 1), (.http (.error 500), 2)],
          .consecutiveFailures) (b.backoff.stream.arm 2 0), ⟨.shut, false⟩⟩, [.shut]) := by
  intro b
  exact ((trip_law b 0).2.2.1 0 ⟨.open, false⟩ [⟨1, .rsp (.http (.error 500)), 0⟩] rfl
    (by simp) (by decide)).2 ⟨2, .rsp (.http (.error 500)), 0⟩ (.http (.error 500))
    .consecutiveFailures rfl (by decide)

end UnifiedBreaker

end LinkerdProxy.Breaker
