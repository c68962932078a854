import LinkerdProxy.Breaker.Unified

namespace LinkerdProxy.Breaker

/-!
# The consecutive-failures breaker, and what both breakers share

`ConsecutiveFailures` (`http/breaker/consecutive_failures.rs`) trips when its loop-local count
of failures reaches `max_failures`.  Its open loop is `ConsecutiveFailures.openStep`; the task
around it is the shared `breakerStep`.

* `recovery_law` — both breakers satisfy `RecoveryLaw`, the unified one with a probe test that
  also rejects rate-limit signals;
* `backoff_exhausted_probes_at_once` — after `u32::MAX` failed probes in one shut episode the
  stream is exhausted, and the next probe is admitted at the instant the gate shuts;
* `breakers_agree` — with `max_failures ≥ 1`, a zero threshold and no rate-limit signals, both
  breakers set the gate through the same transitions; with `max_failures = 0` the unified one
  never touches the gate;
* `ConsecutiveFailures.run_of_zero`, `breakers_agree_below_wrap` — with `max_failures = 0` the
  consecutive-failures breaker leaves the gate alone over any run of fewer than `2^64` events,
  the count that `failures += 1` keeps in a `usize` never wrapping to `0`.
-/

/-- The configuration of a consecutive-failures breaker; `max_failures` is a `usize`. -/
structure ConsecutiveFailures where
  max_failures : Nat
  backoff : ExponentialBackoff
  max_failures_le : max_failures ≤ USIZE_MAX

namespace ConsecutiveFailures

variable (c : ConsecutiveFailures)

/-- One response of `open`'s loop: a success clears the count; a failure bumps it
    (`failures += 1`, which wraps in release builds) and trips when it equals
    `max_failures`. -/
def openStep (failures : Nat) (cl : Class) (_now : Nat) : Nat ⊕ Unit :=
  if cl.isSuccess then .inl 0
  else
    let failures := (failures + 1) % USIZE_MOD
    if failures = c.max_failures then .inr () else .inl failures

/-- `open` starts every phase with `let mut failures = 0`. -/
def reopen (_x : Unit) (_now : Nat) : Nat := 0

/-- The breaker task: `run` with this breaker's open loop; a probe passes when its response is a
    success. -/
def step : State Nat Unit → Event → State Nat Unit × List GateState :=
  breakerStep c.openStep reopen Class.isSuccess c.backoff.stream

def machine : Machine (State Nat Unit) Event GateState := ⟨c.step⟩

@[simp] theorem machine_step : c.machine.step = c.step := rfl

/-- The task as `run` starts it, with the (already open) gate. -/
def init : State Nat Unit := ⟨.open 0, ⟨.open, false⟩⟩

end ConsecutiveFailures

/-! ### The recovery law of both breakers -/

/-- The unified breaker's probe passes exactly on a success that is not a rate-limit signal. -/
theorem is_probe_success_eq (cl : Class) :
    UnifiedBreaker.isProbeSuccess cl = (cl.isSuccess && !isRateLimitSignal cl) := by
  unfold UnifiedBreaker.isProbeSuccess
  cases isRateLimitSignal cl <;> simp

/-- **Recovery law of both breakers.**  The gate leaves `Shut` for `Limited(1)` only when the
    stream yields, and opens only on a passed probe (for the unified breaker a success that is
    not a rate-limit signal); a failed probe shuts it again and re-arms the same stream, which
    waits `base(j)` plus jitter while it has yielded `j < u32::MAX` times and not at all once it
    is exhausted; a trip starts a fresh stream; responses while shut are ignored; a closed
    response channel or a lost gate ends the task. -/
theorem recovery_law (b : UnifiedBreaker) (c : ConsecutiveFailures) :
    RecoveryLaw b.step UnifiedBreaker.isProbeSuccess b.backoff ∧
    RecoveryLaw c.step Class.isSuccess c.backoff ∧
    ∀ cl, UnifiedBreaker.isProbeSuccess cl = (cl.isSuccess && !isRateLimitSignal cl) :=
  ⟨breakerStep_recoveryLaw b.openStep UnifiedBreaker.reopen UnifiedBreaker.isProbeSuccess
      b.backoff,
    breakerStep_recoveryLaw c.openStep ConsecutiveFailures.reopen Class.isSuccess c.backoff,
    is_probe_success_eq⟩

/-! ### A shut episode outlasts its backoff stream -/

namespace ConsecutiveFailures

variable (c : ConsecutiveFailures)

/-- One probe cycle at instant `d`: the stream yields, and the probe's response fails. -/
def probeCycle (fail : Class) (d : Nat) : List Event :=
  [⟨d, .backoff, 0⟩, ⟨d, .rsp fail, 0⟩]

/-- The shut loop with a sleeping stream that has yielded `i` times and expires at `d`. -/
def shutAt (i d : Nat) : State Nat Unit :=
  ⟨.shut () ⟨c.backoff, i, true, d, c.backoff.max⟩, ⟨.shut, false⟩⟩

section Cycles

variable {c} (hmin : c.backoff.min = c.backoff.max) (hjit : c.backoff.has_jitter = false)
  {fail : Class} (hfail : fail.isSuccess = false)
include hmin hjit hfail

/-- With a constant backoff and no jitter, a failed probe cycle moves the stream on by one
    iteration and its deadline by one backoff. -/
theorem run_probeCycle (i d : Nat) (hi : i + 1 < U32_MAX) :
    c.machine.run (c.shutAt i d) (probeCycle fail d) =
      (c.shutAt (i + 1) (d + c.backoff.max), [.limited 1, .shut]) := by
  have hne : i + 1 ≠ U32_MAX := by omega
  simp [probeCycle, shutAt, step, breakerStep, BackoffStream.ready, BackoffStream.fire,
    BackoffStream.arm, Tx.limit, shutGate_eq, hfail, hne,
    ExponentialBackoff.base_of_min_eq_max _ hmin, ExponentialBackoff.jitter, hjit]

/-- `k` failed probe cycles, one backoff apart. -/
theorem run_probeCycles (d : Nat) :
    ∀ k, k < U32_MAX →
      c.machine.run (c.shutAt 0 d)
          ((List.range k).flatMap fun j => probeCycle fail (d + j * c.backoff.max)) =
        (c.shutAt k (d + k * c.backoff.max),
          (List.range k).flatMap fun _ => [.limited 1, .shut]) := by
  intro k
  induction k with
  | zero => intro _; simp
  | succ k ih =>
    intro hk
    rw [List.range_succ, List.flatMap_append, List.flatMap_append, Machine.run_append,
      ih (by omega)]
    simp only [List.flatMap_singleton]
    rw [run_probeCycle hmin hjit hfail k _ (by omega)]
    simp [Nat.add_mul, Nat.add_assoc]

end Cycles

/-- The probe cycle after which the stream has yielded `u32::MAX` times leaves it exhausted. -/
theorem run_probeCycle_last {fail : Class} (hfail : fail.isSuccess = false) (d : Nat) :
    c.machine.run (c.shutAt (U32_MAX - 1) d) (probeCycle fail d) =
      (⟨.shut () ⟨c.backoff, U32_MAX, false, d, c.backoff.max⟩, ⟨.shut, false⟩⟩,
        [.limited 1, .shut]) := by
  simp [probeCycle, shutAt, step, breakerStep, BackoffStream.ready, BackoffStream.fire,
    BackoffStream.arm, Tx.limit, shutGate_eq, hfail, U32_MAX]

end ConsecutiveFailures

/-- **The backoff stream runs out.**  A consecutive-failures breaker with `max_failures = 1` and a
    constant one-second backoff trips on a failure at instant 0; after `u32::MAX` failed probes,
    one second apart, the last of which shuts the gate at `u32::MAX` seconds, the stream is
    exhausted and the gate is limited again at that same instant, although
    `base(u32::MAX)` is one second. -/
theorem backoff_exhausted_probes_at_once :
    let c : ConsecutiveFailures := ⟨1, ⟨1000000000, 1000000000, false⟩, by decide⟩
    let fail : Class := .http (.error 500)
    let es : List Event := ⟨0, .rsp fail, 0⟩ ::
      (List.range U32_MAX).flatMap fun j => [⟨(j + 1) * 1000000000, .backoff, 0⟩,
        ⟨(j + 1) * 1000000000, .rsp fail, 0⟩]
    es.getLast? = some ⟨U32_MAX * 1000000000, .rsp fail, 0⟩ ∧
    (c.machine.run ConsecutiveFailures.init es).2.getLast? = some .shut ∧
    (c.step (c.machine.run ConsecutiveFailures.init es).1
      ⟨U32_MAX * 1000000000, .backoff, 0⟩).2 = [.limited 1] ∧
    c.backoff.base U32_MAX = 1000000000 := by
  intro c fail es
  have hmin : c.backoff.min = c.backoff.max := rfl
  have hjit : c.backoff.has_jitter = false := rfl
  have hfail : fail.isSuccess = false := rfl
  have hB : c.backoff.max = 1000000000 := rfl
  have hmf : c.max_failures = 1 := rfl
  -- the trip at instant 0 starts the shut loop with a fresh stream expiring after one second
  have htrip : c.step ConsecutiveFailures.init ⟨0, .rsp fail, 0⟩ =
      (c.shutAt 0 1000000000, [.shut]) := by
    simp [ConsecutiveFailures.step, ConsecutiveFailures.init, breakerStep,
      ConsecutiveFailures.openStep, shutGate_eq, ConsecutiveFailures.shutAt,
      BackoffStream.arm, ExponentialBackoff.stream, ExponentialBackoff.base_of_min_eq_max _ hmin,
      ExponentialBackoff.jitter, hjit, hfail, USIZE_MOD, U32_MAX, hB, hmf]
  -- the probe cycles are those of `run_probeCycles`, then the last one
  have hr : List.range U32_MAX = List.range (U32_MAX - 1) ++ [U32_MAX - 1] := by
    rw [← List.range_succ]
    congr 1
  have hcycles : ((List.range U32_MAX).flatMap fun j => [(⟨(j + 1) * 1000000000, .backoff, 0⟩ : Event),
        ⟨(j + 1) * 1000000000, .rsp fail, 0⟩]) =
      ((List.range (U32_MAX - 1)).flatMap fun j =>
          ConsecutiveFailures.probeCycle fail (1000000000 + j * c.backoff.max)) ++
        ConsecutiveFailures.probeCycle fail (U32_MAX * 1000000000) := by
    have hf : (fun j => [(⟨(j + 1) * 1000000000, .backoff, 0⟩ : Event),
          ⟨(j + 1) * 1000000000, .rsp fail, 0⟩]) =
        fun j => ConsecutiveFailures.probeCycle fail (1000000000 + j * c.backoff.max) := by
      funext j
      simp [ConsecutiveFailures.probeCycle, hB, Nat.succ_mul, Nat.add_comm]
    have h1 : U32_MAX - 1 + 1 = U32_MAX := by decide
    rw [hr, List.flatMap_append, List.flatMap_singleton, hf]
    simp only [ConsecutiveFailures.probeCycle, hB, h1]
  have hd : 1000000000 + (U32_MAX - 1) * c.backoff.max = U32_MAX * 1000000000 := by
    simp [hB, U32_MAX]
  have hrun : c.machine.run ConsecutiveFailures.init es =
      (⟨.shut () ⟨c.backoff, U32_MAX, false, U32_MAX * 1000000000, c.backoff.max⟩,
          ⟨.shut, false⟩⟩,
        [.shut] ++ ((List.range (U32_MAX - 1)).flatMap fun _ => [.limited 1, .shut]) ++
          [.limited 1, .shut]) := by
    show c.machine.run ConsecutiveFailures.init (⟨0, .rsp fail, 0⟩ :: _) = _
    rw [Machine.run_cons, ConsecutiveFailures.machine_step, htrip, hcycles, Machine.run_append,
      ConsecutiveFailures.run_probeCycles hmin hjit hfail 1000000000 (U32_MAX - 1) (by decide),
      hd, ConsecutiveFailures.run_probeCycle_last c hfail]
    simp only [List.append_assoc]
  refine ⟨?_, ?_, ?_, ExponentialBackoff.base_of_min_eq_max _ hmin _⟩
  · show (⟨0, .rsp fail, 0⟩ :: _ : List Event).getLast? = _
    rw [hcycles, ← List.cons_append, List.getLast?_append]
    rfl
  · rw [hrun, List.getLast?_append]
    rfl
  · rw [hrun]
    simp [ConsecutiveFailures.step, breakerStep, BackoffStream.ready, Tx.limit]

/-! ### The two breakers agree -/

/-- With no window and a count below `max_failures`, the unified open loop counts exactly like
    the consecutive one. -/
theorem UnifiedBreaker.openStep_of_count (b : UnifiedBreaker) {st : OpenState} {f : Nat}
    (hcf : st.consecutive_failures = f) (hsr : st.success_rate = none)
    (hf : f < b.max_failures) (cl : Class) (now : Nat) :
    b.openStep st cl now =
      if cl.isSuccess then .inl ⟨0, none⟩
      else if f + 1 = b.max_failures then .inr (⟨f + 1, none⟩, .consecutiveFailures)
      else .inl ⟨f + 1, none⟩ := by
  have hle := b.max_failures_le
  have hpos : 0 < b.max_failures := by omega
  have hne : b.max_failures ≠ 0 := by omega
  have hsat : UnifiedBreaker.saturatingIncUsize f = f + 1 := by
    unfold UnifiedBreaker.saturatingIncUsize
    omega
  by_cases hs : cl.isSuccess = true
  · simp [UnifiedBreaker.openStep, UnifiedBreaker.observe, UnifiedBreaker.shouldTrip, hs, hsr,
      hpos, hne]
  · by_cases hn : f + 1 = b.max_failures
    · simp [UnifiedBreaker.openStep, UnifiedBreaker.observe, UnifiedBreaker.shouldTrip, hs, hsr,
        hpos, hne, hcf, hsat, hn]
    · have hlt : ¬b.max_failures ≤ f + 1 := by omega
      simp [UnifiedBreaker.openStep, UnifiedBreaker.observe, UnifiedBreaker.shouldTrip, hs, hsr,
        hpos, hcf, hsat, hn, hlt, hne]

/-- Below `max_failures` the consecutive count does not wrap. -/
theorem ConsecutiveFailures.openStep_of_lt (c : ConsecutiveFailures) {f : Nat}
    (hf : f < c.max_failures) (cl : Class) (now : Nat) :
    c.openStep f cl now =
      if cl.isSuccess then .inl 0
      else if f + 1 = c.max_failures then .inr () else .inl (f + 1) := by
  have hle := c.max_failures_le
  have hmod : (f + 1) % USIZE_MOD = f + 1 := by
    apply Nat.mod_eq_of_lt
    unfold USIZE_MAX at hle
    have : 0 < USIZE_MOD := by decide
    omega
  simp [ConsecutiveFailures.openStep, hmod]

/-- **The breakers agree.**  With the same `max_failures ≥ 1` and backoff, a zero threshold and
    no rate-limit signal among the responses, the unified and the consecutive-failures breakers
    set the gate through the same transitions, for every window and `min_requests`; with
    `max_failures = 0` the unified breaker never sets the gate. -/
theorem breakers_agree (b : UnifiedBreaker) (c : ConsecutiveFailures) (t₀ : Nat)
    (hth : b.threshold.active = false) (hbk : b.backoff = c.backoff)
    (hn : b.max_failures = c.max_failures) :
    (1 ≤ c.max_failures → ∀ es : List Event,
      (∀ e ∈ es, ∀ cl, e.input = .rsp cl → isRateLimitSignal cl = false) →
        (b.machine.run (b.init t₀) es).2 = (c.machine.run ConsecutiveFailures.init es).2) ∧
    (c.max_failures = 0 → ∀ es, (b.machine.run (b.init t₀) es).2 = []) := by
  refine ⟨fun hpos es hes => ?_, fun h₀ es => b.run_of_disabled (hn.trans h₀) hth t₀ es⟩
  -- the open states correspond when the unified count is the consecutive one
  let Ro : OpenState → Nat → Prop := fun st f =>
    st.consecutive_failures = f ∧ st.success_rate = none ∧ f < c.max_failures
  let Rx : OpenState × TripReason → Unit → Prop := fun x _ => x.1.success_rate = none
  have hopen : OpenAgree b.openStep c.openStep (fun cl => isRateLimitSignal cl = false)
      Ro Rx := by
    rintro st f cl now - ⟨hcf, hsr, hf⟩
    rw [b.openStep_of_count hcf hsr (hn ▸ hf), c.openStep_of_lt hf, hn]
    by_cases hs : cl.isSuccess = true
    · simp only [hs, if_true]
      exact ⟨rfl, rfl, by omega⟩
    · by_cases hf' : f + 1 = c.max_failures
      · simp only [hs, hf', if_true, if_false, Bool.false_eq_true]
        rfl
      · simp only [hs, hf', if_false, Bool.false_eq_true]
        exact ⟨rfl, rfl, by omega⟩
  have hreopen : ∀ x y now, Rx x y →
      Ro (UnifiedBreaker.reopen x now) (ConsecutiveFailures.reopen y now) := by
    intro x y now hx
    have hx' : x.1.success_rate = none := hx
    refine ⟨rfl, ?_, by unfold ConsecutiveFailures.reopen; omega⟩
    simp [UnifiedBreaker.reopen, OpenState.reset, hx']
  have hprobe : ∀ cl, isRateLimitSignal cl = false →
      UnifiedBreaker.isProbeSuccess cl = cl.isSuccess := by
    intro cl hcl
    simp [UnifiedBreaker.isProbeSuccess, hcl]
  have hinit : StateRel Ro Rx (b.init t₀) ConsecutiveFailures.init :=
    ⟨rfl, by simp [UnifiedBreaker.init, UnifiedBreaker.freshState, OpenState.new,
      UnifiedBreaker.successRateActive, hth, PhaseRel, Ro, ConsecutiveFailures.init,
      Nat.lt_of_lt_of_le Nat.zero_lt_one hpos]⟩
  have hb : b.machine =
      ⟨breakerStep b.openStep UnifiedBreaker.reopen UnifiedBreaker.isProbeSuccess
        c.backoff.stream⟩ := by
    rw [← hbk]
    rfl
  rw [hb]
  exact breakerStep_run_simulation b.openStep UnifiedBreaker.reopen
    UnifiedBreaker.isProbeSuccess c.openStep ConsecutiveFailures.reopen Class.isSuccess
    c.backoff.stream _ Ro Rx hopen hreopen hprobe es hes _ _ hinit

/-! ### `max_failures = 0` -/

/-- The consecutive-failures task with `max_failures = 0` is finished, or open with a count at
    most `n`. -/
def ConsecutiveFailures.OpenWithin (n : Nat) (s : State Nat Unit) : Prop :=
  s.phase = .done ∨ ∃ f, s.phase = .open f ∧ f ≤ n

/-- With `max_failures = 0`, while the count is below `2^64 - 1` one event shows nothing and bumps
    the count by at most one: a failure adds one without wrapping, so it never equals
    `max_failures`. -/
theorem ConsecutiveFailures.step_of_zero (c : ConsecutiveFailures) (h₀ : c.max_failures = 0)
    {n : Nat} (hn : n + 1 < USIZE_MOD) {s : State Nat Unit} (hs : ConsecutiveFailures.OpenWithin n s)
    (e : Event) :
    (c.step s e).2 = [] ∧ ConsecutiveFailures.OpenWithin (n + 1) (c.step s e).1 := by
  obtain ⟨phase, gate⟩ := s
  obtain ⟨now, input, draw⟩ := e
  unfold ConsecutiveFailures.OpenWithin at hs ⊢
  rcases hs with hd | ⟨f, hf, hle⟩
  · -- a finished task stays finished
    dsimp only at hd
    subst hd
    cases input <;> simp [ConsecutiveFailures.step, breakerStep]
  · dsimp only at hf
    subst hf
    have hmod : (f + 1) % USIZE_MOD = f + 1 := Nat.mod_eq_of_lt (by omega)
    cases input with
    | rsp cl =>
      -- the count is cleared or bumped by one, and never reaches `max_failures = 0`
      by_cases hsucc : cl.isSuccess = true
      · simp [ConsecutiveFailures.step, breakerStep, ConsecutiveFailures.openStep, hsucc]
      · simp [ConsecutiveFailures.step, breakerStep, ConsecutiveFailures.openStep, hsucc, hmod,
          h₀]
        omega
    | rspsClosed => simp [ConsecutiveFailures.step, breakerStep]
    | lost =>
      simp only [ConsecutiveFailures.step, breakerStep]
      split <;> simp
      omega
    | backoff | dropReceivers =>
      -- the count is left as it was
      simp [ConsecutiveFailures.step, breakerStep]
      omega

/-- With `max_failures = 0`, a run of fewer than `2^64` events from an open task shows nothing:
    the count never wraps to `0`. -/
theorem ConsecutiveFailures.run_of_zero (c : ConsecutiveFailures) (h₀ : c.max_failures = 0) :
    ∀ (es : List Event) (s : State Nat Unit) (n : Nat), ConsecutiveFailures.OpenWithin n s →
      n + es.length < USIZE_MOD → (c.machine.run s es).2 = [] := by
  intro es
  induction es with
  | nil => intro s n _ _; rfl
  | cons e es ih =>
    intro s n hs hlen
    -- the bound leaves room for this event's bump and for the rest of the run
    have hlen' : n + 1 + es.length < USIZE_MOD := by
      simp only [List.length_cons] at hlen
      omega
    obtain ⟨hout, hs'⟩ := c.step_of_zero h₀ (n := n) (by omega) hs e
    rw [Machine.run_cons, ConsecutiveFailures.machine_step, hout, List.nil_append]
    exact ih _ (n + 1) hs' hlen'

/-- **The breakers agree below `2^64` events.**  With the same `max_failures ≥ 1` and backoff, a
    zero threshold and no rate-limit signal among the responses, the unified and the
    consecutive-failures breakers set the gate through the same transitions, for every window
    and `min_requests`; with `max_failures = 0` neither sets the gate over any run of fewer than
    `2^64` events (the consecutive one's `failures += 1` could wrap to `0` only after `2^64`
    failures). -/
theorem breakers_agree_below_wrap (b : UnifiedBreaker) (c : ConsecutiveFailures) (t₀ : Nat)
    (hth : b.threshold.active = false) (hbk : b.backoff = c.backoff)
    (hn : b.max_failures = c.max_failures) :
    (1 ≤ c.max_failures → ∀ es : List Event,
      (∀ e ∈ es, ∀ cl, e.input = .rsp cl → isRateLimitSignal cl = false) →
        (b.machine.run (b.init t₀) es).2 = (c.machine.run ConsecutiveFailures.init es).2) ∧
    (c.max_failures = 0 → ∀ es : List Event, es.length < USIZE_MOD →
      (b.machine.run (b.init t₀) es).2 = [] ∧
        (c.machine.run ConsecutiveFailures.init es).2 = []) := by
  obtain ⟨hpos, hzero⟩ := breakers_agree b c t₀ hth hbk hn
  refine ⟨hpos, fun h₀ es hlen => ⟨hzero h₀ es, ?_⟩⟩
  -- the task starts open with a count of `0`
  have hinit : ConsecutiveFailures.OpenWithin 0 ConsecutiveFailures.init := .inr ⟨0, rfl, le_rfl⟩
  exact c.run_of_zero h₀ es _ 0 hinit (by omega)

/-- One failure with `max_failures = 1` trips both breakers alike. -/
theorem breakers_agree_below_wrap_trip :
    let c : ConsecutiveFailures := ⟨1, ⟨1000000000, 1000000000, false⟩, by decide⟩
    let b : UnifiedBreaker :=
      ⟨1, ⟨false, fun _ _ => false⟩, 10000000, ⟨1000000000, 1000000000, false⟩, 0, by decide⟩
    let es : List Event := [⟨0, .rsp (.http (.error 500)), 0⟩]
    (b.machine.run (b.init 0) es).2 = (c.machine.run ConsecutiveFailures.init es).2 := by
  intro c b es
  refine (breakers_agree_below_wrap b c 0 rfl rfl rfl).1 le_rfl es ?_
  intro e he cl hcl
  simp only [es, List.mem_singleton] at he
  subst he
  cases hcl
  rfl

end LinkerdProxy.Breaker
