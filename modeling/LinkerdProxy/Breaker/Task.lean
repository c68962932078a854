import LinkerdProxy.Breaker.Basic

namespace LinkerdProxy.Breaker

/-!
# The breaker task: open, shut, probation

Both breakers (`ConsecutiveFailures` and `UnifiedBreaker`) run one task of the same shape: `run`
alternates `open`, which consumes responses until its policy trips, with `closed`, which shuts
the gate, waits for the backoff stream and admits one probe through `probation`.  The two
sources differ only in the bookkeeping of the open loop, in what `closed` carries, in how `run`
re-enters `open`, and in the probe test; `breakerStep` is the task with those as parameters.

* `breakerStep_cases` — everything one step can do, sorted by what it does to the gate;
* `RecoveryLaw` / `breakerStep_recoveryLaw` — how the gate leaves `Shut`: only when the stream
  fires, only through a single probe, re-arming the same stream after each failed probe;
* `breakerStep_simulation` — two tasks whose open loops and probes agree drive the gate alike.
-/

/-- Where a breaker task is: in `open` with its state, in the shut loop or in `probation` of
    `closed` with what it carries and its backoff stream, or returned from `run`. -/
inductive Phase (α β : Type) where
  | «open» (st : α)
  | shut (x : β) (backoff : BackoffStream)
  | probation (x : β) (backoff : BackoffStream)
  | done

/-- A breaker task's state: its phase and the gate it drives. -/
structure State (α β : Type) where
  phase : Phase α β
  gate : Tx

variable {α β : Type}

/-- One pass of `closed`'s outer loop: shut the gate; the first poll of the `select!` then arms
    the stream, in the same turn of the task. -/
def shutGate (gate : Tx) (x : β) (backoff : BackoffStream) (now draw : Nat) :
    State α β × List GateState :=
  match gate.shut with
  | none => (⟨.done, gate⟩, [])
  | some gate => (⟨.shut x (backoff.arm now draw), gate⟩, [.shut])

theorem shutGate_eq (gate : Tx) (x : β) (backoff : BackoffStream) (now draw : Nat) :
    (shutGate gate x backoff now draw : State α β × List GateState) =
      if gate.closed then (⟨.done, gate⟩, [])
      else (⟨.shut x (backoff.arm now draw), { gate with state := .shut }⟩, [.shut]) := by
  cases h : gate.closed <;> simp [shutGate, Tx.shut, h]

section Task

-- `openStep` is one response of the open loop: the next open state, or what `open` returns when
-- the policy trips.  `reopen` is how `run` re-enters `open` after a passed probe,
-- `probe_success` the probe test, `fresh` the stream `closed` starts with.
variable (openStep : α → Class → Nat → α ⊕ β) (reopen : β → Nat → α)
  (probe_success : Class → Bool) (fresh : BackoffStream)

/-- One completed `select!` branch of a breaker task (`run`, `open`, `closed`, `probation`). -/
def breakerStep (s : State α β) (e : Event) : State α β × List GateState :=
  match s.phase, e.input with
  | _, .dropReceivers => (⟨s.phase, { s.gate with closed := true }⟩, [])
  | .done, _ => (s, [])
  -- `rsp.ok_or(())?`: a closed response channel ends the task in every phase
  | _, .rspsClosed => (⟨.done, s.gate⟩, [])
  -- `self.gate.lost()` completes only once every receiver is gone
  | _, .lost => if s.gate.closed then (⟨.done, s.gate⟩, []) else (s, [])
  | .open st, .rsp c =>
    match openStep st c e.now with
    | .inl st => (⟨.open st, s.gate⟩, [])
    | .inr x => shutGate s.gate x fresh e.now e.draw
  | .open _, .backoff => (s, [])
  -- responses that land while shut are consumed and ignored
  | .shut _ _, .rsp _ => (s, [])
  | .shut x backoff, .backoff =>
    if backoff.ready e.now then
      match s.gate.limit 1 with
      | none => (⟨.done, s.gate⟩, [])
      | some gate => (⟨.probation x backoff.fire, gate⟩, [.limited 1])
    else (s, [])
  | .probation x backoff, .rsp c =>
    if probe_success c then
      -- `closed` returns `Ok(())`, and `open` opens the gate again
      match s.gate.open with
      | none => (⟨.done, s.gate⟩, [])
      | some gate => (⟨.open (reopen x e.now), gate⟩, [.open])
    else shutGate s.gate x backoff e.now e.draw
  | .probation _ _, .backoff => (s, [])

theorem breakerStep_open_rsp (st : α) (gate : Tx) (c : Class) (now draw : Nat) :
    breakerStep openStep reopen probe_success fresh ⟨.open st, gate⟩ ⟨now, .rsp c, draw⟩ =
      match openStep st c now with
      | .inl st' => (⟨.open st', gate⟩, [])
      | .inr x => shutGate gate x fresh now draw := rfl

/-- **Inversion.**  A step leaves the gate alone, shuts it (a trip from `open`, arming `fresh`, or
    a failed probe, re-arming the probe's stream), limits it (the shut loop's stream fired) or
    opens it (a passed probe). -/
theorem breakerStep_cases (s : State α β) (e : Event) {r : State α β × List GateState}
    (h : breakerStep openStep reopen probe_success fresh s e = r) :
    (r.2 = [] ∧ r.1.gate.state = s.gate.state ∧
      (r.1.phase = s.phase ∨ r.1.phase = .done ∨
        ∃ st c st', s.phase = .open st ∧ e.input = .rsp c ∧ openStep st c e.now = .inl st' ∧
          r.1.phase = .open st')) ∨
    (r.2 = [.shut] ∧ s.gate.closed = false ∧ ∃ x bs,
      r.1 = ⟨.shut x (bs.arm e.now e.draw), { s.gate with state := .shut }⟩ ∧
      ((∃ st c, s.phase = .open st ∧ e.input = .rsp c ∧ openStep st c e.now = .inr x ∧
          bs = fresh) ∨
        (∃ c, s.phase = .probation x bs ∧ e.input = .rsp c ∧ probe_success c = false))) ∨
    (r.2 = [.limited 1] ∧ s.gate.closed = false ∧ e.input = .backoff ∧ ∃ x bs,
      s.phase = .shut x bs ∧ bs.ready e.now = true ∧
      r.1 = ⟨.probation x bs.fire, { s.gate with state := .limited 1 }⟩) ∨
    (r.2 = [.open] ∧ s.gate.closed = false ∧ ∃ x bs c,
      s.phase = .probation x bs ∧ e.input = .rsp c ∧ probe_success c = true ∧
      r.1 = ⟨.open (reopen x e.now), { s.gate with state := .open }⟩) := by
  subst h
  obtain ⟨phase, gate⟩ := s
  obtain ⟨now, input, draw⟩ := e
  cases phase with
  | «open» st =>
    cases input
    case rsp c =>
      -- the open loop carries on, or its policy trips
      cases ho : openStep st c now with
      | inl st' => simp [breakerStep, ho]
      | inr x => cases hc : gate.closed <;> simp [breakerStep, ho, shutGate_eq, hc]
    all_goals cases hc : gate.closed <;> simp [breakerStep, hc]
  | shut x bs =>
    cases input
    case backoff =>
      by_cases hr : bs.ready now = true <;> cases hc : gate.closed <;>
        simp [breakerStep, hr, hc, Tx.limit]
    all_goals cases hc : gate.closed <;> simp [breakerStep, hc]
  | probation x bs =>
    cases input
    case rsp c =>
      by_cases hp : probe_success c = true <;> cases hc : gate.closed <;>
        simp [breakerStep, hp, hc, Tx.open, shutGate_eq]
    all_goals cases hc : gate.closed <;> simp [breakerStep, hc]
  | done => cases input <;> simp [breakerStep]

/-- A step out of `done` leaves the task returned and the gate alone. -/
theorem breakerStep_of_done {s : State α β} (hs : s.phase = .done) (e : Event) :
    (breakerStep openStep reopen probe_success fresh s e).1.phase = .done ∧
      (breakerStep openStep reopen probe_success fresh s e).2 = [] := by
  obtain ⟨phase, gate⟩ := s
  obtain ⟨now, input, draw⟩ := e
  simp only at hs
  subst hs
  cases input <;> simp [breakerStep]

/-! ### The recovery law -/

/-- What `closed` and `probation` promise of a breaker task `step` whose probes pass
    `probe_success` and whose trips start a stream of `backoff`. -/
structure RecoveryLaw (step : State α β → Event → State α β × List GateState)
    (probe_success : Class → Bool) (backoff : ExponentialBackoff) : Prop where
  /-- The gate is shut only by a trip from `open`, which arms a fresh stream, or by a failed
      probe, which re-arms the stream that admitted it; both at the instant of the step. -/
  shut : ∀ s e, (step s e).2 = [.shut] → ∃ x bs,
    (step s e).1.phase = .shut x (bs.arm e.now e.draw) ∧
      ((∃ st, s.phase = .open st ∧ bs = backoff.stream) ∨
        (∃ c, s.phase = .probation x bs ∧ e.input = .rsp c ∧ probe_success c = false))
  /-- A stream armed as the gate shuts, having yielded `j < u32::MAX` times, waits `base(j)`
      plus a jitter of at most `max - base(j)` (none without jitter); an exhausted stream is
      ready at once. -/
  wait : ∀ s e x bs, (step s e).2 = [.shut] → (step s e).1.phase = .shut x bs →
    (bs.iterations < U32_MAX → bs.sleeping = true ∧
      ∃ jit ≤ bs.backoff.max - bs.backoff.base bs.iterations,
        bs.deadline = e.now + bs.backoff.base bs.iterations + jit ∧
        (bs.backoff.has_jitter = false → jit = 0)) ∧
    (bs.iterations = U32_MAX → bs.ready e.now = true)
  /-- The gate is limited to one permit exactly when the shut loop's stream yields. -/
  limited : ∀ s e, (step s e).2 = [.limited 1] ↔
    s.gate.closed = false ∧ e.input = .backoff ∧
      ∃ x bs, s.phase = .shut x bs ∧ bs.ready e.now = true
  /-- The gate opens exactly when the probe's response passes. -/
  reopen : ∀ s e, (step s e).2 = [.open] ↔
    s.gate.closed = false ∧
      ∃ x bs c, s.phase = .probation x bs ∧ e.input = .rsp c ∧ probe_success c = true
  /-- Responses that land while the gate is shut are consumed and change nothing. -/
  ignored : ∀ s e x bs c, s.phase = .shut x bs → e.input = .rsp c → step s e = (s, [])
  /-- A closed response channel, or a gate whose receivers are all gone, ends the task in
      every phase. -/
  ends : ∀ s e, (e.input = .rspsClosed ∨ (e.input = .lost ∧ s.gate.closed = true)) →
    (step s e).1.phase = .done
  /-- An ended task does nothing more. -/
  done : ∀ s e, s.phase = .done → (step s e).1.phase = .done ∧ (step s e).2 = []
  /-- Within one shut episode (from the trip, with no `Open` since) the stream belongs to
      `backoff` and has yielded once per probe admitted, up to `u32::MAX`. -/
  episode : ∀ s x t d es, s.phase = .shut x (backoff.stream.arm t d) →
    GateState.open ∉ ((Machine.mk step).run s es).2 →
    ∀ x' bs, ((Machine.mk step).run s es).1.phase = .shut x' bs →
      bs.backoff = backoff ∧
        bs.iterations = min ((((Machine.mk step).run s es).2).count (.limited 1)) U32_MAX

/-- The invariant of a shut episode after the outputs `os`: unless the gate has been opened,
    the task is shut or in probation with a stream of `backoff` that has yielded once per
    `Limited` output, up to `u32::MAX`, and that sleeps in the shut loop exactly while it is
    not exhausted. -/
def EpisodeInv (backoff : ExponentialBackoff) (os : List GateState) (s : State α β) : Prop :=
  GateState.open ∈ os ∨
    match s.phase with
    | .open _ => False
    | .shut _ bs => bs.backoff = backoff ∧ bs.iterations = min (os.count (.limited 1)) U32_MAX ∧
        (bs.sleeping = true ↔ bs.iterations < U32_MAX)
    | .probation _ bs => bs.backoff = backoff ∧
        bs.iterations = min (os.count (.limited 1)) U32_MAX ∧ bs.sleeping = false
    | .done => True

/-- Re-arming the stream of a failed probe keeps the shut-loop half of the invariant. -/
theorem episode_arm {bs : BackoffStream} {n : Nat} (hit : bs.iterations = min n U32_MAX)
    (hsl : bs.sleeping = false) (now draw : Nat) :
    ((bs.arm now draw).sleeping = true ↔ (bs.arm now draw).iterations < U32_MAX) := by
  rw [BackoffStream.arm_sleeping, BackoffStream.arm_iterations]
  split
  · rename_i hx
    rw [hsl, hx]
    simp
  · simp only [true_iff]
    omega

/-- The stream's firing as the gate is limited keeps the count of the invariant. -/
theorem episode_fire {bs : BackoffStream} {n : Nat} (hit : bs.iterations = min n U32_MAX)
    (hsl : bs.sleeping = true ↔ bs.iterations < U32_MAX) :
    bs.fire.iterations = min (n + 1) U32_MAX := by
  rw [BackoffStream.fire_iterations]
  split
  · have : bs.iterations < U32_MAX := hsl.mp ‹_›
    omega
  · have : ¬bs.iterations < U32_MAX := fun h => ‹¬_› (hsl.mpr h)
    omega

theorem episodeInv_step (backoff : ExponentialBackoff) (os : List GateState) (s : State α β)
    (e : Event) (h : EpisodeInv backoff os s) :
    EpisodeInv backoff (os ++ (breakerStep openStep reopen probe_success fresh s e).2)
      (breakerStep openStep reopen probe_success fresh s e).1 := by
  rcases h with hopen | h
  · exact Or.inl (List.mem_append_left _ hopen)
  rcases breakerStep_cases openStep reopen probe_success fresh s e rfl with
    ⟨hout, -, hph | hph | ⟨st, -, -, hs, -, -, -⟩⟩ | ⟨hout, -, x, bs, hr, hfrom⟩ |
    ⟨hout, -, -, x, bs, hs, -, hr⟩ | ⟨hout, -⟩
  · -- a quiet step that keeps the phase
    right
    rw [hout, List.append_nil, hph]
    exact h
  · right
    rw [hph]
    trivial
  · rw [hs] at h
    exact h.elim
  · rcases hfrom with ⟨st, -, hs, -⟩ | ⟨c, hs, -, -⟩
    · rw [hs] at h
      exact h.elim
    -- a failed probe re-arms the probation's stream
    rw [hs] at h
    obtain ⟨hbk, hit, hsl⟩ := h
    right
    rw [hout, hr]
    exact ⟨by simp [hbk], by simp [hit], episode_arm hit hsl e.now e.draw⟩
  · -- the stream yields and the probe is admitted
    rw [hs] at h
    obtain ⟨hbk, hit, hsl⟩ := h
    right
    rw [hout, hr]
    refine ⟨by simp [hbk], ?_, BackoffStream.fire_sleeping bs⟩
    rw [episode_fire hit hsl]
    simp
  · -- the probe passed: the episode is over
    left
    simp [hout]

theorem episodeInv_start (backoff : ExponentialBackoff) {s : State α β} {x : β} {t d : Nat}
    (hs : s.phase = .shut x (backoff.stream.arm t d)) : EpisodeInv backoff [] s := by
  right
  rw [hs]
  refine ⟨by simp, by simp, ?_⟩
  simp [BackoffStream.arm_sleeping, U32_MAX]

/-- **Recovery law.**  Every breaker task satisfies `RecoveryLaw` for its probe test, when its
    trips start a fresh stream of `backoff`. -/
theorem breakerStep_recoveryLaw (backoff : ExponentialBackoff) :
    RecoveryLaw (breakerStep openStep reopen probe_success backoff.stream) probe_success
      backoff where
  shut s e h := by
    rcases breakerStep_cases openStep reopen probe_success backoff.stream s e rfl with
      ⟨hout, -⟩ | ⟨-, -, x, bs, hr, hfrom⟩ | ⟨hout, -⟩ | ⟨hout, -⟩
    · simp [hout] at h
    · refine ⟨x, bs, by rw [hr], ?_⟩
      rcases hfrom with ⟨st, -, hs, -, -, hbs⟩ | hp
      · exact Or.inl ⟨st, hs, hbs⟩
      · exact Or.inr hp
    · simp [hout] at h
    · simp [hout] at h
  wait s e x bs h hph := by
    rcases breakerStep_cases openStep reopen probe_success backoff.stream s e rfl with
      ⟨hout, -⟩ | ⟨-, -, x₀, bs₀, hr, -⟩ | ⟨hout, -⟩ | ⟨hout, -⟩
    · simp [hout] at h
    · rw [hr] at hph
      obtain ⟨-, rfl⟩ := Phase.shut.inj hph
      simp only [BackoffStream.arm_iterations, BackoffStream.arm_backoff]
      exact BackoffStream.armDeadline bs₀ e.now e.draw
    · simp [hout] at h
    · simp [hout] at h
  limited s e := by
    constructor
    · intro h
      rcases breakerStep_cases openStep reopen probe_success backoff.stream s e rfl with
        ⟨hout, -⟩ | ⟨hout, -⟩ | ⟨-, hc, hin, x, bs, hs, hr, -⟩ | ⟨hout, -⟩
      · simp [hout] at h
      · simp [hout] at h
      · exact ⟨hc, hin, x, bs, hs, hr⟩
      · simp [hout] at h
    · rintro ⟨hc, hin, x, bs, hs, hr⟩
      obtain ⟨phase, gate⟩ := s
      obtain ⟨now, input, draw⟩ := e
      simp only at hc hin hs hr
      subst hin hs
      simp [breakerStep, hr, hc, Tx.limit]
  reopen s e := by
    constructor
    · intro h
      rcases breakerStep_cases openStep reopen probe_success backoff.stream s e rfl with
        ⟨hout, -⟩ | ⟨hout, -⟩ | ⟨hout, -⟩ | ⟨-, hc, x, bs, c, hs, hin, hp, -⟩
      · simp [hout] at h
      · simp [hout] at h
      · simp [hout] at h
      · exact ⟨hc, x, bs, c, hs, hin, hp⟩
    · rintro ⟨hc, x, bs, c, hs, hin, hp⟩
      obtain ⟨phase, gate⟩ := s
      obtain ⟨now, input, draw⟩ := e
      simp only at hc hin hs
      subst hin hs
      simp [breakerStep, hp, hc, Tx.open]
  ignored s e x bs c hs hin := by
    obtain ⟨phase, gate⟩ := s
    obtain ⟨now, input, draw⟩ := e
    simp only at hs hin
    subst hs hin
    rfl
  ends s e h := by
    obtain ⟨phase, gate⟩ := s
    obtain ⟨now, input, draw⟩ := e
    rcases h with hin | ⟨hin, hc⟩ <;> simp only at hin <;> subst hin
    · cases phase <;> simp [breakerStep]
    · simp only at hc
      cases phase <;> simp [breakerStep, hc]
  done s e hs := breakerStep_of_done openStep reopen probe_success backoff.stream hs e
  episode s x t d es hs hno x' bs hfin := by
    have hinv := Machine.run_trace_invariant
      (Machine.mk (breakerStep openStep reopen probe_success backoff.stream)) (fun _ => True)
      (EpisodeInv backoff)
      (fun os s e _ h => episodeInv_step openStep reopen probe_success backoff.stream backoff
        os s e h)
      es [] s (fun _ _ => trivial) (episodeInv_start backoff hs)
    rw [List.nil_append] at hinv
    rcases hinv with hopen | hinv
    · exact absurd hopen hno
    · rw [hfin] at hinv
      exact ⟨hinv.1, hinv.2.1⟩

end Task

/-! ### Two breakers that agree -/

section Simulation

variable {α₁ β₁ α₂ β₂ : Type}
  (open₁ : α₁ → Class → Nat → α₁ ⊕ β₁) (reopen₁ : β₁ → Nat → α₁) (probe₁ : Class → Bool)
  (open₂ : α₂ → Class → Nat → α₂ ⊕ β₂) (reopen₂ : β₂ → Nat → α₂) (probe₂ : Class → Bool)
  (fresh : BackoffStream) (legal : Class → Prop) (Ro : α₁ → α₂ → Prop) (Rx : β₁ → β₂ → Prop)

/-- Two phases in step: related open states, or related carried values with one stream, or both
    returned. -/
def PhaseRel : Phase α₁ β₁ → Phase α₂ β₂ → Prop
  | .open a, .open b => Ro a b
  | .shut x bs, .shut y bs' => Rx x y ∧ bs = bs'
  | .probation x bs, .probation y bs' => Rx x y ∧ bs = bs'
  | .done, .done => True
  | _, _ => False

/-- Two task states in step: one gate, and related phases. -/
def StateRel (s : State α₁ β₁) (t : State α₂ β₂) : Prop :=
  s.gate = t.gate ∧ PhaseRel Ro Rx s.phase t.phase

/-- Two open loops agree on the responses `legal` admits: from related states both carry on
    with related states, or both trip with related values. -/
def OpenAgree : Prop :=
  ∀ a b c now, legal c → Ro a b →
    match open₁ a c now, open₂ b c now with
    | .inl a', .inl b' => Ro a' b'
    | .inr x, .inr y => Rx x y
    | _, _ => False

/-- **Simulation step.**  Two breaker tasks whose open loops agree, whose re-entries into `open`
    agree and whose probes agree on legal responses, started from related states, take one
    legal event to related states and set the gate alike. -/
theorem breakerStep_simulation (hopen : OpenAgree open₁ open₂ legal Ro Rx)
    (hreopen : ∀ x y now, Rx x y → Ro (reopen₁ x now) (reopen₂ y now))
    (hprobe : ∀ c, legal c → probe₁ c = probe₂ c)
    (s : State α₁ β₁) (t : State α₂ β₂) (e : Event) (he : ∀ c, e.input = .rsp c → legal c)
    (hst : StateRel Ro Rx s t) :
    StateRel Ro Rx (breakerStep open₁ reopen₁ probe₁ fresh s e).1
        (breakerStep open₂ reopen₂ probe₂ fresh t e).1 ∧
      (breakerStep open₁ reopen₁ probe₁ fresh s e).2 =
        (breakerStep open₂ reopen₂ probe₂ fresh t e).2 := by
  obtain ⟨p₁, gate⟩ := s
  obtain ⟨p₂, gate'⟩ := t
  obtain ⟨hg, hp⟩ := hst
  obtain ⟨now, input, draw⟩ := e
  simp only at hg hp he
  subst hg
  cases p₁ <;> cases p₂ <;> simp only [PhaseRel] at hp
  case open.open a b =>
    cases input
    case rsp c =>
      -- both open loops carry on, or both trip
      have hab := hopen a b c now (he c rfl) hp
      cases h₁ : open₁ a c now <;> cases h₂ : open₂ b c now <;> simp only [h₁, h₂] at hab
      · simp [breakerStep, h₁, h₂, StateRel, PhaseRel, hab]
      · cases hc : gate.closed <;>
          simp [breakerStep, h₁, h₂, shutGate_eq, hc, StateRel, PhaseRel, hab]
    all_goals cases hc : gate.closed <;> simp [breakerStep, hc, StateRel, PhaseRel, hp]
  case shut.shut x bs y bs' =>
    obtain ⟨hxy, rfl⟩ := hp
    cases input
    case backoff =>
      by_cases hr : bs.ready now = true <;> cases hc : gate.closed <;>
        simp [breakerStep, hr, hc, Tx.limit, StateRel, PhaseRel, hxy]
    all_goals cases hc : gate.closed <;> simp [breakerStep, hc, StateRel, PhaseRel, hxy]
  case probation.probation x bs y bs' =>
    obtain ⟨hxy, rfl⟩ := hp
    cases input
    case rsp c =>
      have hpc := hprobe c (he c rfl)
      by_cases hpr : probe₁ c = true
      · have hpr₂ : probe₂ c = true := hpc ▸ hpr
        cases hc : gate.closed <;>
          simp [breakerStep, hpr, hpr₂, hc, Tx.open, StateRel, PhaseRel, hreopen x y now hxy]
      · have hpr₂ : ¬probe₂ c = true := hpc ▸ hpr
        cases hc : gate.closed <;>
          simp [breakerStep, hpr, hpr₂, hc, shutGate_eq, StateRel, PhaseRel, hxy]
    all_goals cases hc : gate.closed <;> simp [breakerStep, hc, StateRel, PhaseRel, hxy]
  case done.done => cases input <;> simp [breakerStep, StateRel, PhaseRel]

/-- Two such tasks set the gate through the same transitions on every run of legal events. -/
theorem breakerStep_run_simulation (hopen : OpenAgree open₁ open₂ legal Ro Rx)
    (hreopen : ∀ x y now, Rx x y → Ro (reopen₁ x now) (reopen₂ y now))
    (hprobe : ∀ c, legal c → probe₁ c = probe₂ c)
    (es : List Event) (hes : ∀ e ∈ es, ∀ c, e.input = .rsp c → legal c)
    (s : State α₁ β₁) (t : State α₂ β₂) (hst : StateRel Ro Rx s t) :
    ((Machine.mk (breakerStep open₁ reopen₁ probe₁ fresh)).run s es).2 =
      ((Machine.mk (breakerStep open₂ reopen₂ probe₂ fresh)).run t es).2 :=
  (Machine.run_simulation _ _ (fun e => ∀ c, e.input = .rsp c → legal c) (StateRel Ro Rx)
    (fun s t e he hst => breakerStep_simulation open₁ reopen₁ probe₁ open₂ reopen₂ probe₂ fresh
      legal Ro Rx hopen hreopen hprobe s t e he hst) es s t hes hst).2

end Simulation

end LinkerdProxy.Breaker
