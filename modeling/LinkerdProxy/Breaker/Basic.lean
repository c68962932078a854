import LinkerdProxy.Lib.Machine
import LinkerdProxy.Breaker.SuccessRate

namespace LinkerdProxy.Breaker

/-!
# What both circuit breakers share

The response classes the breakers read (`classify::Class`, `app/core/src/classify.rs`), the gate
they drive (`gate::Tx`, `stack/src/gate.rs`), the recovery backoff (`ExponentialBackoff` and its
stream, `exp-backoff/src/lib.rs`) and the inputs of a breaker task: one `Event` is one completed
`select!` branch, or the environment dropping the last gate receiver.

* `ExponentialBackoff.base` — `min * 2^j` capped at `max`, as `base` computes it;
* `BackoffStream.pollNext` — the stream's `poll_next`, and its decomposition into `arm` (the
  first poll, which starts the sleep) and `fire` (the poll that sees the sleep elapsed);
* `BackoffStream.arm_deadline` — an armed stream with `j < u32::MAX` expires `base(j) + jitter`
  after it was armed, and one that has yielded `u32::MAX` times is ready at once.
-/

/-! ### Response classes -/

/-- gRPC status codes (`tonic::Code`). -/
inductive Code where
  | ok | cancelled | unknown | invalidArgument | deadlineExceeded | notFound | alreadyExists
  | permissionDenied | resourceExhausted | failedPrecondition | aborted | outOfRange
  | unimplemented | internal | unavailable | dataLoss | unauthenticated
  deriving DecidableEq, Repr

/-- A classified response (`classify::Class`); `Result<T>` there is `Result<T, T>`.  An HTTP
    status is its numeric code. -/
inductive Class where
  | http (status : Except Nat Nat)
  | grpc (code : Except Code Code)
  | error (message : String)
  deriving DecidableEq, Repr

namespace Class

/-- `Class::is_failure`. -/
def isFailure : Class → Bool
  | .http (.error _) | .grpc (.error _) | .error _ => true
  | _ => false

/-- `Class::is_success`. -/
def isSuccess (c : Class) : Bool := !c.isFailure

end Class

/-- `http::StatusCode::TOO_MANY_REQUESTS`. -/
def TOO_MANY_REQUESTS : Nat := 429

/-! ### The gate -/

/-- The gate's state (`gate::State`); a limited gate carries its semaphore's permits. -/
inductive GateState where
  | open
  | limited (permits : Nat)
  | shut
  deriving DecidableEq, Repr

/-- The sending half of the gate (`gate::Tx`): the watched state, and whether every receiver has
    been dropped (`watch::Sender::is_closed`). -/
structure Tx where
  state : GateState
  closed : Bool
  deriving DecidableEq, Repr

namespace Tx

/-- `Tx::open`, `Tx::limit` and `Tx::shut` share one shape: fail with `Closed` once every receiver
    is gone, otherwise replace the state. -/
def sendReplace (tx : Tx) (state : GateState) : Option Tx :=
  if tx.closed then none else some { tx with state := state }

/-- `Tx::open`. -/
def «open» (tx : Tx) : Option Tx := tx.sendReplace .open

/-- `Tx::limit(permits)`. -/
def limit (tx : Tx) (permits : Nat) : Option Tx := tx.sendReplace (.limited permits)

/-- `Tx::shut`. -/
def shut (tx : Tx) : Option Tx := tx.sendReplace .shut

@[simp] theorem sendReplace_of_closed {tx : Tx} (h : tx.closed = true) (state : GateState) :
    tx.sendReplace state = none := by
  simp [sendReplace, h]

@[simp] theorem sendReplace_of_not_closed {tx : Tx} (h : tx.closed = false) (state : GateState) :
    tx.sendReplace state = some { tx with state := state } := by
  simp [sendReplace, h]

end Tx

/-! ### The recovery backoff -/

/-- `Duration::MAX` in nanoseconds. -/
def DURATION_MAX : Nat := (2 ^ 64 - 1) * 1000000000 + 999999999

/-- A jittered exponential backoff strategy (`ExponentialBackoff`), durations in nanoseconds.
    The `f64` jitter ratio enters only through whether it is zero (`has_jitter`); the amount a
    nonzero ratio draws is an input of the step that draws it. -/
structure ExponentialBackoff where
  min : Nat
  max : Nat
  has_jitter : Bool
  deriving DecidableEq, Repr

namespace ExponentialBackoff

/-- `ExponentialBackoff::base`:
    `min.checked_mul(2_u32.saturating_pow(iterations)).unwrap_or(max).min(max)`. -/
def base (b : ExponentialBackoff) (iterations : Nat) : Nat :=
  let factor := Nat.min (2 ^ iterations) U32_MAX
  if b.min * factor ≤ DURATION_MAX then Nat.min (b.min * factor) b.max else b.max

/-- `ExponentialBackoff::jitter` for a drawn amount `draw`: nothing for a zero ratio, otherwise
    the draw, capped at `max - base`. -/
def jitter (b : ExponentialBackoff) (base draw : Nat) : Nat :=
  if b.has_jitter then Nat.min draw (b.max - base) else 0

/-- A backoff whose minimum is its maximum waits that long at every iteration. -/
theorem base_of_min_eq_max (b : ExponentialBackoff) (h : b.min = b.max) (j : Nat) :
    b.base j = b.max := by
  have hf : 1 ≤ Nat.min (2 ^ j) U32_MAX :=
    Nat.le_min.mpr ⟨Nat.one_le_two_pow, by decide⟩
  have hle : b.max ≤ b.min * Nat.min (2 ^ j) U32_MAX := by
    rw [← h]
    exact Nat.le_mul_of_pos_right _ hf
  simp only [base]
  split
  · exact Nat.min_eq_right hle
  · rfl

end ExponentialBackoff

/-- A jittered exponential backoff stream (`ExponentialBackoffStream`): the iterations it has
    yielded, whether a sleep is pending, the sleep's deadline and the last duration. -/
structure BackoffStream where
  backoff : ExponentialBackoff
  iterations : Nat
  sleeping : Bool
  deadline : Nat
  duration : Nat
  deriving DecidableEq, Repr

/-- `ExponentialBackoff::stream`: no iterations yet and no sleep pending. -/
def ExponentialBackoff.stream (b : ExponentialBackoff) : BackoffStream :=
  ⟨b, 0, false, 0, 0⟩

/-- The outcome of polling a stream of `()`: `Poll<Option<()>>`. -/
inductive StreamPoll where
  | pending
  | ready (item : Option Unit)
  deriving DecidableEq, Repr

namespace BackoffStream

@[simp] theorem stream_backoff (b : ExponentialBackoff) : b.stream.backoff = b := rfl

@[simp] theorem stream_iterations (b : ExponentialBackoff) : b.stream.iterations = 0 := rfl

@[simp] theorem stream_sleeping (b : ExponentialBackoff) : b.stream.sleeping = false := rfl

/-- The first poll of a stream with no sleep pending: an exhausted stream stays as it is;
    otherwise the sleep is reset to `now + base + jitter`. -/
def arm (s : BackoffStream) (now draw : Nat) : BackoffStream :=
  if s.iterations = U32_MAX then s
  else
    let base := s.backoff.base s.iterations
    let d := base + s.backoff.jitter base draw
    { s with duration := d, deadline := now + d, sleeping := true }

/-- The stream yields at `now`: it is exhausted, or its sleep has elapsed. -/
def ready (s : BackoffStream) (now : Nat) : Bool :=
  s.iterations = U32_MAX || (s.sleeping && decide (s.deadline ≤ now))

/-- The poll that sees the sleep elapsed: the iteration count moves on. -/
def fire (s : BackoffStream) : BackoffStream :=
  if s.sleeping then { s with sleeping := false, iterations := s.iterations + 1 } else s

@[simp] theorem arm_backoff (s : BackoffStream) (now draw : Nat) :
    (s.arm now draw).backoff = s.backoff := by
  unfold arm; split <;> rfl

@[simp] theorem arm_iterations (s : BackoffStream) (now draw : Nat) :
    (s.arm now draw).iterations = s.iterations := by
  unfold arm; split <;> rfl

/-- Arming starts a sleep unless the stream is exhausted. -/
theorem arm_sleeping (s : BackoffStream) (now draw : Nat) :
    (s.arm now draw).sleeping = if s.iterations = U32_MAX then s.sleeping else true := by
  unfold arm; split <;> rfl

@[simp] theorem fire_backoff (s : BackoffStream) : s.fire.backoff = s.backoff := by
  unfold fire; split <;> rfl

@[simp] theorem fire_sleeping (s : BackoffStream) : s.fire.sleeping = false := by
  unfold fire; split
  · rfl
  · rename_i h
    simpa using h

/-- Firing counts one more iteration exactly when a sleep was pending. -/
theorem fire_iterations (s : BackoffStream) :
    s.fire.iterations = if s.sleeping then s.iterations + 1 else s.iterations := by
  unfold fire; split <;> rfl

/-- `ExponentialBackoffStream::poll_next`, the loop unrolled: a pending sleep is polled; with
    none pending an exhausted stream ends, otherwise a sleep is started and polled at once. -/
def pollNext (s : BackoffStream) (now draw : Nat) : StreamPoll × BackoffStream :=
  if s.sleeping then
    if s.deadline ≤ now then
      (.ready (some ()), { s with sleeping := false, iterations := s.iterations + 1 })
    else (.pending, s)
  else if s.iterations = U32_MAX then (.ready none, s)
  else
    let base := s.backoff.base s.iterations
    let d := base + s.backoff.jitter base draw
    let s := { s with duration := d, deadline := now + d, sleeping := true }
    if s.deadline ≤ now then
      (.ready (some ()), { s with sleeping := false, iterations := s.iterations + 1 })
    else (.pending, s)

/-- **The wait of an armed stream.**  A stream that has yielded `j < u32::MAX` times sleeps
    `base(j)` plus a jitter of at most `max - base(j)`; one that has yielded `u32::MAX` times is
    exhausted and ready at once. -/
theorem armDeadline (s : BackoffStream) (now draw : Nat) :
    (s.iterations < U32_MAX → (s.arm now draw).sleeping = true ∧
      ∃ jit ≤ s.backoff.max - s.backoff.base s.iterations,
        (s.arm now draw).deadline = now + s.backoff.base s.iterations + jit ∧
        (s.backoff.has_jitter = false → jit = 0)) ∧
    (s.iterations = U32_MAX → (s.arm now draw).ready now = true) := by
  refine ⟨fun hlt => ?_, fun heq => ?_⟩
  · have hne : s.iterations ≠ U32_MAX := Nat.ne_of_lt hlt
    refine ⟨by simp [arm, hne], s.backoff.jitter (s.backoff.base s.iterations) draw, ?_, ?_, ?_⟩
    · unfold ExponentialBackoff.jitter
      split
      · exact Nat.min_le_right _ _
      · exact Nat.zero_le _
    · simp [arm, hne, Nat.add_assoc]
    · intro hj
      simp [ExponentialBackoff.jitter, hj]
  · simp [arm, ready, heq]

end BackoffStream

/-! ### Inputs of a breaker task -/

/-- What a breaker task can observe: a completed `select!` branch, or the environment dropping
    the last gate receiver. -/
inductive Input where
  /-- `self.rsps.recv()` returned `Some(class)`. -/
  | rsp (c : Class)
  /-- `self.rsps.recv()` returned `None`: every response sender is gone. -/
  | rspsClosed
  /-- The `self.gate.lost()` branch was polled (it completes once every receiver is gone). -/
  | lost
  /-- The `backoff.next()` branch was polled (it completes once the stream is ready). -/
  | backoff
  /-- Every gate receiver was dropped (`watch::Sender::is_closed` becomes true). -/
  | dropReceivers
  deriving DecidableEq, Repr

/-- One input with the instant it is handled at (`Instant::now()`) and the jitter the backoff
    stream draws if it starts a sleep in this step. -/
structure Event where
  now : Nat
  input : Input
  draw : Nat
  deriving DecidableEq, Repr

/-- The responses among a run of events, with the instants they were handled at. -/
def responses (es : List Event) : List (Class × Nat) :=
  es.filterMap fun e =>
    match e.input with
    | .rsp c => some (c, e.now)
    | _ => none

@[simp] theorem responses_nil : responses [] = [] := rfl

theorem responses_cons_rsp {e : Event} {c : Class} (h : e.input = .rsp c) (es : List Event) :
    responses (e :: es) = (c, e.now) :: responses es := by
  simp [responses, h]

theorem responses_append (es fs : List Event) :
    responses (es ++ fs) = responses es ++ responses fs := by
  simp [responses, List.filterMap_append]

end LinkerdProxy.Breaker
