import LinkerdProxy.Breaker.Basic
import LinkerdProxy.Http.StreamTimeouts
import LinkerdProxy.Retry.Replay
import Mathlib.Data.List.Iterate

namespace LinkerdProxy.Retry

open LinkerdProxy.Http (StreamTimeouts StreamLifetime ResponseTimeoutError)
open LinkerdProxy.Breaker (ExponentialBackoff)

/-!
# Retried requests (`http::retry`, and the outbound route's `RetryPolicy`)

`SetExtensions` gives a request of a route its `RetryPolicy`, its `StreamTimeouts`, with the
policy's per-attempt timeout as the response-headers timeout, and `Attempt(1)`.  `HttpRetry`
takes the policy out and, when the body can be replayed, runs `send_req_with_retries`: the
request, then up to `max_retries` backups, each made by `mk_backup` from the request before it,
with `RetryPolicy::set_extensions`, which counts the attempt (saturating at `u16::MAX`) and
clears the headers timeout once no retry remains.

The service is given by what each attempt yields (its result, and what the backup's body then
says of `is_capped()`) and by its readiness before each retry.  The backoff only delays a retry
and is left out.

* `send_req_with_retries_eq` — the first request is a pass of the loop whose service is ready;
* `LoopRun`, `retry_loop_run` — the loop sends the successive backups, a retry only after a
  retryable, replayable attempt and a ready service, and returns the last attempt's result or the
  service's readiness error;
* `attempt_iterate`, `timeouts_iterate` — what the `i`-th backup carries;
* `retry_law` — for every request `SetExtensions` gives a policy: at most `1 + max_retries`
  attempts, attempt `k` carrying `Attempt(min(k, u16::MAX))`, and the headers timeout exactly when
  `k = 1` or `min(k, u16::MAX) ≤ max_retries`;
* `final_attempt_keeps_headers_timeout` — with `max_retries = 0` the only attempt, which is the
  final one, still carries the headers timeout.
-/

/-! ### Attempt counts -/

def U16_MAX : Nat := 2 ^ 16 - 1

/-- `NonZeroU16`. -/
structure NonZeroU16 where
  val : Nat
  pos : 0 < val
  le_max : val ≤ U16_MAX
  deriving DecidableEq

namespace NonZeroU16

/-- `1.try_into().unwrap()`. -/
def one : NonZeroU16 := ⟨1, by decide, by decide⟩

/-- `2.try_into().unwrap()`. -/
def two : NonZeroU16 := ⟨2, by decide, by decide⟩

/-- `NonZeroU16::saturating_add`. -/
def saturatingAdd (n : NonZeroU16) (k : Nat) : NonZeroU16 :=
  ⟨Nat.min (n.val + k) U16_MAX,
    Nat.lt_min.mpr ⟨Nat.lt_of_lt_of_le n.pos (Nat.le_add_right _ _), by decide⟩,
    Nat.min_le_right _ _⟩

@[simp] theorem val_one : one.val = 1 := rfl

@[simp] theorem val_saturating_add (n : NonZeroU16) (k : Nat) :
    (n.saturatingAdd k).val = Nat.min (n.val + k) U16_MAX := rfl

end NonZeroU16

/-! ### The route's retry policy -/

/-- `tonic::Code::from_i32`, as the `u16` that `Codes::contains` looks up: the codes `0..=16`,
    and `Unknown` (2) for any other number. -/
def codeFromI32 (i : Int) : Nat := if 0 ≤ i ∧ i ≤ 16 then i.toNat else 2

/-- `StatusRanges`: inclusive ranges of HTTP statuses. -/
structure StatusRanges where
  ranges : List (Nat × Nat)
  deriving DecidableEq, Repr

def StatusRanges.contains (s : StatusRanges) (code : Nat) : Bool :=
  s.ranges.any fun r => r.1 ≤ code && code ≤ r.2

/-- `Codes`: a set of gRPC codes. -/
structure Codes where
  codes : List Nat
  deriving DecidableEq, Repr

def Codes.contains (c : Codes) (code : Nat) : Bool := c.codes.contains code

/-- `RetryPolicy`; durations in nanoseconds. -/
structure RetryPolicy where
  timeout : Option Nat
  retryable_http_statuses : Option StatusRanges
  retryable_grpc_statuses : Option Codes
  max_retries : Nat
  max_request_bytes : Nat
  backoff : Option ExponentialBackoff
  deriving DecidableEq, Repr

/-- A response as `is_retryable` reads it: its status, its `grpc-status` header (absent, or the
    `i32` it parses to, if any), and the trailers its body peeked, with their `grpc-status`. -/
structure Response where
  status : Nat
  grpc_status_header : Option (Option Int)
  trailers : Option (Option (Option Int))
  deriving DecidableEq, Repr

/-- `RetryPolicy::grpc_status`: the header's code; without the header, the peeked trailers'. -/
def grpcStatus (rsp : Response) : Option Nat :=
  match rsp.grpc_status_header with
  | some header => header.map codeFromI32
  | none => (rsp.trailers.bind id).bind fun status => status.map codeFromI32

/-- The errors of a chain that `retryable_error` tells apart. -/
inductive Cause where
  | load_shed
  | fail_fast
  | response_timeout (e : ResponseTimeoutError)
  | h2 (reason : Option Nat)
  | other
  deriving DecidableEq, Repr

/-- An `Error`, with its chain of sources, outermost first. -/
structure Error where
  chain : List Cause
  deriving DecidableEq, Repr

/-- `is_caused_by`: some error of the chain is of the kind. -/
def isCausedBy (p : Cause → Bool) (error : Error) : Bool := error.chain.any p

/-- `cause_ref`: the first error of the chain of the kind. -/
def causeRef {α : Type} (f : Cause → Option α) (error : Error) : Option α :=
  error.chain.findSome? f

/-- `h2::Reason::REFUSED_STREAM`. -/
def REFUSED_STREAM : Nat := 7

/-- `RetryPolicy::retryable_error`. -/
def RetryPolicy.retryableError (error : Error) : Bool :=
  -- a load-shed request is not retried, a fail-fast one is, as it may reach another backend
  if isCausedBy (· == .load_shed) error then false
  else if isCausedBy (· == .fail_fast) error then true
  else if causeRef (fun | .response_timeout e => some e | _ => none) error matches
      some (.headers _) then true
  else
    match causeRef (fun | .h2 reason => some reason | _ => none) error with
    | some reason => reason == some REFUSED_STREAM
    | none => false

/-- `RetryPolicy::is_retryable`: an error by its causes; a response by its gRPC status, then by
    its HTTP status. -/
def RetryPolicy.isRetryable (self : RetryPolicy) (res : Except Error Response) : Bool :=
  match res with
  | .error error => retryableError error
  | .ok rsp =>
    (match self.retryable_grpc_statuses with
      | some codes => (grpcStatus rsp).any codes.contains
      | none => false) ||
    (match self.retryable_http_statuses with
      | some statuses => statuses.contains rsp.status
      | none => false)

/-- The request extensions this path reads and writes: the retry policy, the stream timeouts,
    and the `Attempt`. -/
structure Extensions where
  retry : Option RetryPolicy
  timeouts : Option StreamTimeouts
  attempt : Option NonZeroU16
  deriving DecidableEq

/-- `RetryPolicy::set_extensions`: the next request's extensions, from the previous request's:
    the attempt counted, and the timeouts copied, without the headers timeout once the attempt
    is past `max_retries`. -/
def RetryPolicy.setExtensions (self : RetryPolicy) (src : Extensions) : Extensions :=
  let attempt := match src.attempt with
    | some n => n.saturatingAdd 1
    -- there was already a first attempt, with the original extensions
    | none => NonZeroU16.two
  let timeouts := src.timeouts.map fun timeouts =>
    let retries_remain := attempt.val ≤ self.max_retries
    if ¬retries_remain then { timeouts with response_headers := none } else timeouts
  { retry := none, timeouts := timeouts, attempt := some attempt }

/-! ### `SetExtensions` -/

/-- `policy::http::Timeouts`. -/
structure Timeouts where
  response : Option Nat
  idle : Option Nat
  request : Option Nat
  deriving DecidableEq, Repr

/-- `extensions::Params`. -/
structure Params where
  retry : Option RetryPolicy
  timeouts : Timeouts
  allow_l5d_request_headers : Bool
  deriving DecidableEq, Repr

/-- The `l5d-*` request headers, each as its parser reads it (`none`: absent or refused). -/
structure L5dHeaders where
  retry_http : Option StatusRanges
  retry_grpc : Option Codes
  retry_limit : Option Nat
  retry_timeout : Option Nat
  timeout : Option Nat
  request_timeout : Option Nat
  response_timeout : Option Nat
  deriving DecidableEq, Repr

/-- `From<Duration> for StreamLifetime`: the deadline is `Instant::now() + lifetime`. -/
def StreamLifetime.ofDuration (now lifetime : Nat) : StreamLifetime :=
  ⟨now + lifetime, lifetime⟩

namespace SetExtensions

/-- `SetExtensions::configure_retry`: the route's policy, with what the headers override; a
    policy from the headers alone retries once, with a 64 KiB body limit and a backoff from 25 ms
    to 250 ms with jitter. -/
def configureRetry (params : Params) (req : L5dHeaders) : Option RetryPolicy :=
  if !params.allow_l5d_request_headers then params.retry
  else
    match params.retry with
    | some retry => some { retry with
        timeout := req.retry_timeout.or retry.timeout
        retryable_http_statuses := req.retry_http.or retry.retryable_http_statuses
        retryable_grpc_statuses := req.retry_grpc.or retry.retryable_grpc_statuses
        max_retries := req.retry_limit.getD retry.max_retries }
    | none =>
      match req.retry_http, req.retry_grpc, req.retry_limit, req.retry_timeout with
      | none, none, none, none => none
      | retryable_http_statuses, retryable_grpc_statuses, retry_limit, timeout =>
        some { timeout, retryable_http_statuses, retryable_grpc_statuses
               max_retries := retry_limit.getD 1
               max_request_bytes := 64 * 1024
               backoff := some ⟨25000000, 250000000, true⟩ }

/-- `SetExtensions::configure_timeouts`: the route's timeouts, then the headers' (of the two
    names for the lifetime limit, the longer one wins). -/
def configureTimeouts (params : Params) (req : L5dHeaders) (now : Nat) : StreamTimeouts :=
  let timeouts : StreamTimeouts :=
    { response_headers := none
      response_end := params.timeouts.response
      idle := params.timeouts.idle
      limit := params.timeouts.request.map (StreamLifetime.ofDuration now) }
  if !params.allow_l5d_request_headers then timeouts
  else
    let timeouts := match req.timeout with
      | some t => { timeouts with limit := some (StreamLifetime.ofDuration now t) }
      | none => timeouts
    let timeouts := match req.request_timeout with
      | some t => { timeouts with limit := some (StreamLifetime.ofDuration now t) }
      | none => timeouts
    match req.response_timeout with
    | some t => { timeouts with response_end := some t }
    | none => timeouts

/-- `SetExtensions::call`: the policy, the timeouts with the response headers awaited no longer
    than the retry timeout, and `Attempt(1)`. -/
def call (params : Params) (req : L5dHeaders) (now : Nat) : Extensions :=
  let retry := configureRetry params req
  let timeouts := { configureTimeouts params req now with
    response_headers := retry.bind (·.timeout) }
  { retry := retry, timeouts := some timeouts, attempt := some NonZeroU16.one }

end SetExtensions

/-! ### The retry loop -/

/-- `Policy`, as the loop uses it: whether a result is retried, and the extensions of a backup
    made from a request (`set_headers` copies the headers, which are not modelled). -/
structure Policy (X E R : Type) where
  isRetryable : Except E R → Bool
  setExtensions : X → X

/-- What an attempt yields: its result, and then what the backup's body says of
    `is_capped()`. -/
structure Sent (E R : Type) where
  result : Except E R
  capped : Option Bool

/-- A retry: `svc.ready().now_or_never()` (`none` when not ready at once), then the attempt. -/
structure Retried (E R : Type) where
  ready : Option (Except E Unit)
  sent : Sent E R

variable {X E R : Type}

/-- `mk_backup`: a copy of the request with the extensions the policy sets. -/
def mkBackup (policy : Policy X E R) (orig : X) : X := policy.setExtensions orig

/-- The `for n in 1..=max_retries` loop, with `k` passes left and `n` the next retry's number;
    the backup and the last result are carried from one pass to the next. -/
def retryLoop (policy : Policy X E R) (env : Nat → Retried E R) :
    Nat → Nat → X → Except E R → List X × Except E R
  -- "Retry limit exceeded"
  | 0, _, _, result => ([], result)
  | k + 1, n, backup, result =>
    match (env n).ready with
    -- the `?` on the readiness
    | some (.error e) => ([], .error e)
    -- "Retry overflow; service is not ready"
    | none => ([], result)
    | some (.ok ()) =>
      let request := backup
      let backup := mkBackup policy request
      let result := (env n).sent.result
      if !policy.isRetryable result then ([request], result)
      -- `is_capped()` is `None | Some(true)`
      else if (env n).sent.capped != some false then ([request], result)
      else
        let (sent, result) := retryLoop policy env k (n + 1) backup result
        (request :: sent, result)

/-- `send_req_with_retries`: the requests sent, in order, and the result returned. -/
def sendReqWithRetries (policy : Policy X E R) (max_retries : Nat) (request : X)
    (first : Sent E R) (env : Nat → Retried E R) : List X × Except E R :=
  let backup := mkBackup policy request
  let result := first.result
  if !policy.isRetryable result then ([request], result)
  -- `is_capped()` is `None | Some(true)`: the body was too large, or the response came before
  -- the body was read
  else if first.capped != some false then ([request], result)
  else
    let (sent, result) := retryLoop policy env max_retries 1 backup result
    (request :: sent, result)

/-- The route's policy as the loop's. -/
def RetryPolicy.policy (self : RetryPolicy) : Policy Extensions Error Response :=
  ⟨self.isRetryable, self.setExtensions⟩

/-- `HttpRetry::call`: without a policy, or with a body too long to replay, the request is sent
    once; otherwise `send_req_with_retries`, on the request without its policy. -/
def HttpRetry.call {β T : Type} (req : Extensions) (body : Inner β T) (size_hint_lower : Nat)
    (first : Sent Error Response) (env : Nat → Retried Error Response) :
    List Extensions × Except Error Response :=
  match req.retry with
  | none => ([req], first.result)
  | some policy =>
    let req := { req with retry := none }
    match tryNew body size_hint_lower policy.max_request_bytes with
    | .error _ => ([req], first.result)
    | .ok _ => sendReqWithRetries policy.policy policy.max_retries req first env

/-! ### What a run of the loop does -/

section Loop

variable (policy : Policy X E R) (env : Nat → Retried E R)

/-- Whether the loop goes on after an attempt: its result is retryable and the backup's body can
    be replayed. -/
def proceeds (s : Sent E R) : Bool := policy.isRetryable s.result && s.capped == some false

/-- The two checks after an attempt are one: whether it proceeds. -/
theorem checks_eq_proceeds {α : Type} (s : Sent E R) (go stop : α) :
    (if !policy.isRetryable s.result then stop
      else if s.capped != some false then stop else go) =
      if proceeds policy s then go else stop := by
  by_cases hr : policy.isRetryable s.result = true
  · by_cases hc : s.capped = some false
    · simp [proceeds, hr, hc]
    · simp [proceeds, hr, hc]
  · simp [proceeds, hr]

/-- A pass whose service is ready sends the backup, and goes on exactly when that attempt
    proceeds. -/
theorem retry_loop_of_ready {k n : Nat} {backup : X} {result : Except E R}
    (h : (env n).ready = some (.ok ())) :
    retryLoop policy env (k + 1) n backup result =
      if proceeds policy (env n).sent then
        (backup :: (retryLoop policy env k (n + 1) (mkBackup policy backup)
            (env n).sent.result).1,
          (retryLoop policy env k (n + 1) (mkBackup policy backup) (env n).sent.result).2)
      else ([backup], (env n).sent.result) := by
  simp only [retryLoop, h]
  exact checks_eq_proceeds policy _ _ _

/-- The loop from retry `n` reads the service at retries from `n` on only. -/
theorem retry_loop_congr {env' : Nat → Retried E R} {n : Nat}
    (h : ∀ i, n ≤ i → env i = env' i) (k : Nat) (backup : X) (last : Except E R) :
    retryLoop policy env k n backup last = retryLoop policy env' k n backup last := by
  induction k generalizing n backup last with
  | zero => rfl
  | succ k ih =>
    have hrest := ih (fun i hi => h i (Nat.le_of_succ_le hi))
    simp only [retryLoop, h n (le_refl n), hrest]

/-- The passes of `send_req_with_retries`: the first request, sent to a service made ready
    before the call, then the retries. -/
def outcomes (first : Sent E R) (env : Nat → Retried E R) : Nat → Retried E R
  | 0 => ⟨some (.ok ()), first⟩
  | n + 1 => env (n + 1)

/-- The first request is a pass of the loop whose service is ready: the whole call is the loop
    with one more pass. -/
theorem send_req_with_retries_eq (max_retries : Nat) (request : X) (first : Sent E R) :
    sendReqWithRetries policy max_retries request first env =
      retryLoop policy (outcomes first env) (max_retries + 1) 0 request first.result := by
  have hrest : ∀ backup last, retryLoop policy env max_retries 1 backup last =
      retryLoop policy (outcomes first env) max_retries 1 backup last := by
    intro backup last
    apply retry_loop_congr
    intro i hi
    obtain ⟨j, rfl⟩ : ∃ j, i = j + 1 := ⟨i - 1, by omega⟩
    rfl
  rw [retry_loop_of_ready policy (outcomes first env) rfl]
  simp only [sendReqWithRetries, hrest]
  exact checks_eq_proceeds policy _ _ _

/-- What a run of the loop did, from retry `n` with `k` passes left, carrying the result `last`,
    when it sent `sent` and returned `res`. -/
structure LoopRun (k n : Nat) (backup : X) (last : Except E R) (sent : List X)
    (res : Except E R) : Prop where
  /-- the requests are the successive backups -/
  requests : sent = List.iterate (mkBackup policy) backup sent.length
  length_le : sent.length ≤ k
  /-- each was sent to a ready service -/
  ready : ∀ i < sent.length, (env (n + i)).ready = some (.ok ())
  /-- each but the last proceeded -/
  retried : ∀ i, i + 1 < sent.length → proceeds policy (env (n + i)).sent = true
  /-- before the limit, the loop stops only after an attempt that does not proceed, or at a
      service that is not ready -/
  stops : sent.length < k →
    (0 < sent.length ∧ proceeds policy (env (n + sent.length - 1)).sent = false) ∨
      (env (n + sent.length)).ready ≠ some (.ok ())
  /-- the result is the last attempt's, or the readiness error of the service -/
  result : res = (if sent.length = 0 then last else (env (n + sent.length - 1)).sent.result) ∨
    sent.length < k ∧ ∃ e, (env (n + sent.length)).ready = some (.error e) ∧ res = .error e

namespace LoopRun

variable {policy env}

theorem limit (n : Nat) (backup : X) (last : Except E R) :
    LoopRun policy env 0 n backup last [] last :=
  ⟨rfl, le_refl _, fun _ h => absurd h (Nat.not_lt_zero _),
    fun _ h => absurd h (Nat.not_lt_zero _), fun h => absurd h (Nat.lt_irrefl _),
    Or.inl (by simp)⟩

theorem not_ready {k n : Nat} (backup : X) (last : Except E R) (h : (env n).ready = none) :
    LoopRun policy env (k + 1) n backup last [] last :=
  ⟨rfl, Nat.zero_le _, fun _ h => absurd h (Nat.not_lt_zero _),
    fun _ h => absurd h (Nat.not_lt_zero _), fun _ => Or.inr (by simp [h]),
    Or.inl (by simp)⟩

theorem ready_error {k n : Nat} (backup : X) (last : Except E R) {e : E}
    (h : (env n).ready = some (.error e)) :
    LoopRun policy env (k + 1) n backup last [] (.error e) :=
  ⟨rfl, Nat.zero_le _, fun _ h => absurd h (Nat.not_lt_zero _),
    fun _ h => absurd h (Nat.not_lt_zero _), fun _ => Or.inr (by simp [h]),
    Or.inr ⟨Nat.succ_pos _, e, h, rfl⟩⟩

theorem stop {k n : Nat} (backup : X) (last : Except E R)
    (hr : (env n).ready = some (.ok ())) (hp : proceeds policy (env n).sent = false) :
    LoopRun policy env (k + 1) n backup last [backup] (env n).sent.result where
  requests := rfl
  length_le := Nat.succ_le_succ (Nat.zero_le _)
  ready i hi := by
    obtain rfl : i = 0 := Nat.lt_one_iff.mp hi
    exact hr
  retried _ hi := absurd hi (by simp)
  stops _ := Or.inl ⟨Nat.one_pos, hp⟩
  result := Or.inl rfl

/-- A pass that sends its backup and goes on, followed by a run from the next retry. -/
theorem cons {k n : Nat} {backup : X} (last : Except E R) {sent : List X} {res : Except E R}
    (hr : (env n).ready = some (.ok ())) (hp : proceeds policy (env n).sent = true)
    (h : LoopRun policy env k (n + 1) (mkBackup policy backup) (env n).sent.result sent res) :
    LoopRun policy env (k + 1) n backup last (backup :: sent) res where
  requests := by
    show backup :: sent = backup :: List.iterate (mkBackup policy) (mkBackup policy backup) _
    rw [← h.requests]
  length_le := Nat.succ_le_succ h.length_le
  ready i hi := by
    cases i with
    | zero => exact hr
    | succ j =>
      have hj : n + (j + 1) = n + 1 + j := by omega
      rw [hj]
      exact h.ready j (Nat.lt_of_succ_lt_succ hi)
  retried i hi := by
    cases i with
    | zero => exact hp
    | succ j =>
      have hj : n + (j + 1) = n + 1 + j := by omega
      rw [hj]
      exact h.retried j (Nat.lt_of_succ_lt_succ hi)
  stops hlt := by
    -- the run after this pass stopped for the same reason, at the same retry
    have hidx : n + 1 + sent.length = n + (sent.length + 1) := by omega
    have hlast : n + 1 + sent.length - 1 = n + (sent.length + 1) - 1 := by omega
    rcases h.stops (Nat.lt_of_succ_lt_succ hlt) with ⟨_, hq⟩ | hq
    · exact Or.inl ⟨Nat.succ_pos _, by rw [List.length_cons, ← hlast]; exact hq⟩
    · exact Or.inr (by rw [List.length_cons, ← hidx]; exact hq)
  result := by
    have hidx : n + 1 + sent.length = n + (sent.length + 1) := by omega
    have hlast : (if sent.length = 0 then (env n).sent.result
        else (env (n + 1 + sent.length - 1)).sent.result) =
        (env (n + (sent.length + 1) - 1)).sent.result := by
      split
      · next h0 =>
        rw [h0]
        rfl
      · have hsub : n + 1 + sent.length - 1 = n + (sent.length + 1) - 1 := by omega
        rw [hsub]
    rcases h.result with hq | ⟨hlt, e, he, hres⟩
    · exact Or.inl (by rw [List.length_cons, if_neg (Nat.succ_ne_zero _), hq, hlast])
    · refine Or.inr ⟨Nat.succ_lt_succ hlt, e, ?_, hres⟩
      rw [List.length_cons, ← hidx]
      exact he

end LoopRun

/-- **Loop law.**  Every run of the loop is a `LoopRun`. -/
theorem retry_loop_run (k n : Nat) (backup : X) (last : Except E R) :
    LoopRun policy env k n backup last (retryLoop policy env k n backup last).1
      (retryLoop policy env k n backup last).2 := by
  induction k generalizing n backup last with
  | zero => exact LoopRun.limit n backup last
  | succ k ih =>
    -- one pass: the readiness poll, then the attempt
    rcases hready : (env n).ready with _ | _ | ⟨⟩
    · simpa [retryLoop, hready] using LoopRun.not_ready backup last hready
    · next e =>
      simpa [retryLoop, hready] using LoopRun.ready_error backup last hready
    · rw [retry_loop_of_ready policy env hready]
      cases hp : proceeds policy (env n).sent
      · exact LoopRun.stop backup last hready hp
      · exact LoopRun.cons last hready hp (ih _ _ _)

end Loop

/-! ### What a call does -/

section Call

variable (policy : Policy X E R) (env : Nat → Retried E R)

/-- What `send_req_with_retries` did when it sent `sent` and returned `res`. -/
structure Retries (m : Nat) (request : X) (first : Sent E R) (sent : List X) (res : Except E R) :
    Prop where
  /-- the request, then its successive backups -/
  requests : sent = List.iterate (mkBackup policy) request sent.length
  length_pos : 0 < sent.length
  length_le : sent.length ≤ m + 1
  /-- a retry follows an attempt that proceeds, at a ready service -/
  retried : ∀ i, i + 1 < sent.length →
    proceeds policy (outcomes first env i).sent = true ∧ (env (i + 1)).ready = some (.ok ())
  /-- before the limit, the call stops only after an attempt that does not proceed, or at a
      service that is not ready -/
  stops : sent.length ≤ m →
    proceeds policy (outcomes first env (sent.length - 1)).sent = false ∨
      (env sent.length).ready ≠ some (.ok ())
  /-- the result is the last attempt's, or the readiness error of the service -/
  result : res = (outcomes first env (sent.length - 1)).sent.result ∨
    sent.length ≤ m ∧ ∃ e, (env sent.length).ready = some (.error e) ∧ res = .error e

/-- **Call law.**  Every call of `send_req_with_retries` is `Retries`: the loop law, with the
    first request as the pass at which the service is ready. -/
theorem send_req_with_retries_run (m : Nat) (request : X) (first : Sent E R) :
    Retries policy env m request first (sendReqWithRetries policy m request first env).1
      (sendReqWithRetries policy m request first env).2 := by
  rw [send_req_with_retries_eq]
  have run := retry_loop_run policy (outcomes first env) (m + 1) 0 request first.result
  generalize retryLoop policy (outcomes first env) (m + 1) 0 request first.result = p at run ⊢
  obtain ⟨sent, res⟩ := p
  dsimp only at run ⊢
  -- the first pass is always sent: its service is ready
  have hpos : 0 < sent.length := by
    rcases Nat.eq_zero_or_pos sent.length with h0 | h0
    · rcases run.stops (by omega) with ⟨hlt, -⟩ | hq
      · omega
      · exact absurd (by rw [h0]; rfl) hq
    · exact h0
  obtain ⟨L, hL⟩ : ∃ L, sent.length = L + 1 := ⟨sent.length - 1, by omega⟩
  refine ⟨run.requests, hpos, run.length_le, fun i hi => ?_, fun hle => ?_, ?_⟩
  · exact ⟨by simpa using run.retried i hi, by simpa [outcomes] using run.ready (i + 1) hi⟩
  · rcases run.stops (by omega) with ⟨-, hq⟩ | hq
    · exact Or.inl (by simpa using hq)
    · exact Or.inr (by rw [hL] at hq ⊢; simpa [outcomes] using hq)
  · rcases run.result with hq | ⟨hlt, e, he, hres⟩
    · exact Or.inl (by rw [hq, if_neg (by omega), Nat.zero_add])
    · refine Or.inr ⟨by omega, e, ?_, hres⟩
      rw [hL] at he ⊢
      simpa [outcomes] using he

/-- A service that fails its readiness check before the first retry makes the call return that
    error, in place of the result of the attempt before. -/
theorem send_req_ready_error (m : Nat) (request : X) {first : Sent E R}
    (hp : proceeds policy first = true) {e : E} (he : (env 1).ready = some (.error e)) :
    sendReqWithRetries policy (m + 1) request first env = ([request], .error e) := by
  rw [send_req_with_retries_eq, retry_loop_of_ready policy (outcomes first env) rfl]
  simp only [outcomes, hp, if_true, retryLoop, he]

end Call

/-! ### What each attempt carries -/

section Attempts

variable (r : RetryPolicy)

/-- Counting one more attempt on `min(i + 1, u16::MAX)` gives `min(i + 2, u16::MAX)`. -/
theorem min_succ_saturating (i : Nat) :
    Nat.min (Nat.min (i + 1) U16_MAX + 1) U16_MAX = Nat.min (i + 1 + 1) U16_MAX := by
  simp only [Nat.min_def]
  split_ifs <;> omega

/-- The `i`-th backup of a request marked `Attempt(1)` is marked `Attempt(min(i + 1, u16::MAX))`. -/
theorem attempt_iterate {ext : Extensions} (h : ext.attempt = some NonZeroU16.one) (i : Nat) :
    ((r.setExtensions)^[i] ext).attempt.map (·.val) = some (Nat.min (i + 1) U16_MAX) := by
  induction i with
  | zero => simp [h, U16_MAX]
  | succ i ih =>
    rw [Function.iterate_succ_apply']
    obtain ⟨a, ha, hval⟩ := Option.map_eq_some_iff.mp ih
    simp only [RetryPolicy.setExtensions, ha, Option.map_some, NonZeroU16.val_saturating_add,
      hval, min_succ_saturating]

/-- The `i`-th backup of a request marked `Attempt(1)` keeps its timeouts, with the headers
    timeout while its attempt is within `max_retries` (the request itself keeps it whatever
    `max_retries` is), and without it from then on. -/
theorem timeouts_iterate {ext : Extensions} (h : ext.attempt = some NonZeroU16.one)
    {τ : StreamTimeouts} (ht : ext.timeouts = some τ) (i : Nat) :
    ((r.setExtensions)^[i] ext).timeouts =
      some { τ with response_headers :=
        if i = 0 ∨ Nat.min (i + 1) U16_MAX ≤ r.max_retries then τ.response_headers
        else none } := by
  induction i with
  | zero => simp [ht]
  | succ i ih =>
    rw [Function.iterate_succ_apply']
    obtain ⟨a, ha, hval⟩ := Option.map_eq_some_iff.mp (attempt_iterate r h i)
    simp only [RetryPolicy.setExtensions, ha, ih, Option.map_some, NonZeroU16.val_saturating_add,
      hval, min_succ_saturating]
    by_cases hm : Nat.min (i + 1 + 1) U16_MAX ≤ r.max_retries
    · -- still within the retries: so was the attempt before
      have hprev : Nat.min (i + 1) U16_MAX ≤ r.max_retries :=
        Nat.le_trans (Nat.le_min.mpr ⟨Nat.le_trans (Nat.min_le_left _ _) (Nat.le_succ _),
          Nat.min_le_right _ _⟩) hm
      simp [hm, hprev]
    · simp [hm]

end Attempts

/-! ### The route's retries -/

section Route

variable (params : Params) (headers : L5dHeaders) (now : Nat)

/-- `SetExtensions` gives a request with retries its policy, `Attempt(1)`, and timeouts with the
    policy's timeout for the headers. -/
theorem call_extensions {r : RetryPolicy}
    (hr : SetExtensions.configureRetry params headers = some r) :
    (SetExtensions.call params headers now).retry = some r ∧
      (SetExtensions.call params headers now).attempt = some NonZeroU16.one ∧
      ∃ τ : StreamTimeouts, (SetExtensions.call params headers now).timeouts = some τ ∧
        τ.response_headers = r.timeout := by
  simp [SetExtensions.call, hr]

/-- `HttpRetry::call` on a request with a policy: the body's size hint decides whether it is
    retried at all. -/
theorem HttpRetry.call_of_retry {β T : Type} {req : Extensions} {policy : RetryPolicy}
    (h : req.retry = some policy) (body : Inner β T) (size_hint_lower : Nat)
    (first : Sent Error Response) (env : Nat → Retried Error Response) :
    HttpRetry.call req body size_hint_lower first env =
      if size_hint_lower > policy.max_request_bytes then
        ([{ req with retry := none }], first.result)
      else sendReqWithRetries policy.policy policy.max_retries { req with retry := none } first
        env := by
  by_cases hc : size_hint_lower > policy.max_request_bytes
  · simp [HttpRetry.call, h, tryNew, hc]
  · simp [HttpRetry.call, h, tryNew, hc]

/-- **Retry law.**  For every request `SetExtensions` gives a policy `r`, every body and every
    behaviour of the service: at least one and at most `1 + max_retries` attempts; attempt `i + 1`
    is marked `Attempt(min(i + 1, u16::MAX))` and carries the headers timeout `r.timeout` exactly
    when it is the first or its mark is within `max_retries`; a retry follows an attempt that
    proceeds, at a ready service; and the result is the last attempt's, or the readiness error of
    the service. -/
theorem retry_law {β T : Type} {r : RetryPolicy}
    (hr : SetExtensions.configureRetry params headers = some r) (body : Inner β T)
    (size_hint_lower : Nat) (first : Sent Error Response) (env : Nat → Retried Error Response)
    {sent : List Extensions} {res : Except Error Response}
    (hcall : HttpRetry.call (SetExtensions.call params headers now) body size_hint_lower first env =
      (sent, res)) :
    0 < sent.length ∧ sent.length ≤ r.max_retries + 1 ∧
      (∀ i (hi : i < sent.length),
        sent[i].attempt.map (·.val) = some (Nat.min (i + 1) U16_MAX) ∧
        sent[i].timeouts.map (·.response_headers) =
          some (if i = 0 ∨ Nat.min (i + 1) U16_MAX ≤ r.max_retries then r.timeout
            else none)) ∧
      (∀ i, i + 1 < sent.length →
        proceeds r.policy (outcomes first env i).sent = true ∧
          (env (i + 1)).ready = some (.ok ())) ∧
      (res = (outcomes first env (sent.length - 1)).sent.result ∨
        ∃ e, (env sent.length).ready = some (.error e) ∧ res = .error e) := by
  obtain ⟨hret, hatt, τ, hτ, hτh⟩ := call_extensions params headers now hr
  set ext := SetExtensions.call params headers now
  -- whether the body is replayed or not, the requests are the first and its backups
  have hrun : sent = List.iterate r.setExtensions { ext with retry := none } sent.length ∧
      0 < sent.length ∧ sent.length ≤ r.max_retries + 1 ∧
      (∀ i, i + 1 < sent.length →
        proceeds r.policy (outcomes first env i).sent = true ∧
          (env (i + 1)).ready = some (.ok ())) ∧
      (res = (outcomes first env (sent.length - 1)).sent.result ∨
        ∃ e, (env sent.length).ready = some (.error e) ∧ res = .error e) := by
    rw [HttpRetry.call_of_retry hret] at hcall
    split at hcall
    · obtain ⟨rfl, rfl⟩ := Prod.mk.inj hcall
      exact ⟨rfl, Nat.one_pos, Nat.succ_le_succ (Nat.zero_le _),
        fun i hi => absurd hi (by simp), Or.inl rfl⟩
    · have run := send_req_with_retries_run r.policy env r.max_retries { ext with retry := none }
        first
      rw [hcall] at run
      exact ⟨run.requests, run.length_pos, run.length_le, run.retried,
        run.result.imp id fun h => h.2⟩
  obtain ⟨hsent, hpos, hle, hretried, hres⟩ := hrun
  have hatt' : ({ ext with retry := none } : Extensions).attempt = some NonZeroU16.one := hatt
  have hτ' : ({ ext with retry := none } : Extensions).timeouts = some τ := hτ
  refine ⟨hpos, hle, fun i hi => ?_, hretried, hres⟩
  -- the `i`-th request is the `i`-th backup of the first
  have hget : sent[i] = (r.setExtensions)^[i] { ext with retry := none } := by
    rw [List.getElem_of_eq hsent, List.getElem_iterate]
  rw [hget]
  refine ⟨attempt_iterate r hatt' i, ?_⟩
  rw [timeouts_iterate r hatt' hτ' i, Option.map_some, hτh]

/-- Two retries of a `504` that is retried: three attempts, the last without the headers
    timeout. -/
example :
    (HttpRetry.call
        (SetExtensions.call ⟨some ⟨some 1, some ⟨[(502, 504)]⟩, none, 2, 64, none⟩,
        ⟨none, none, none⟩, false⟩ ⟨none, none, none, none, none, none, none⟩ 0)
        (⟨[], false⟩ : Inner Unit Unit) 0 ⟨.ok ⟨504, none, none⟩, some false⟩
        (fun _ => ⟨some (.ok ()), ⟨.ok ⟨504, none, none⟩, some false⟩⟩)).1.map
      (fun req => req.timeouts.map (·.response_headers)) =
      [some (some 1), some (some 1), some none] :=
  rfl

/-- With `max_retries = 0` and a retry timeout `d`, the only attempt, which is the final one,
    still waits no longer than `d` for the response headers. -/
theorem final_attempt_keeps_headers_timeout {β T : Type} {r : RetryPolicy}
    (hr : SetExtensions.configureRetry params headers = some r) (hm : r.max_retries = 0)
    {d : Nat} (ht : r.timeout = some d) (body : Inner β T) (size_hint_lower : Nat)
    (first : Sent Error Response) (env : Nat → Retried Error Response) :
    ∃ req, (HttpRetry.call (SetExtensions.call params headers now) body size_hint_lower first
      env).1 = [req] ∧ req.attempt.map (·.val) = some 1 ∧
      req.timeouts.map (·.response_headers) = some (some d) := by
  generalize hcall : HttpRetry.call (SetExtensions.call params headers now) body size_hint_lower
    first env = p
  obtain ⟨sent, res⟩ := p
  obtain ⟨hpos, hle, hcarry, -, -⟩ := retry_law params headers now hr body size_hint_lower first
    env hcall
  -- exactly one attempt, the first
  obtain ⟨req, rfl⟩ : ∃ req, sent = [req] := List.length_eq_one_iff.mp (by omega)
  obtain ⟨hatt, htim⟩ := hcarry 0 hpos
  rw [List.getElem_cons_zero, if_pos (Or.inl rfl), ht] at htim
  exact ⟨req, rfl, hatt, htim⟩

/-- A route whose policy has no retries and a one-second timeout, which the headers may not
    change: its one request still waits no longer than a second for the headers. -/
theorem final_attempt_keeps_headers_timeout_one_second :
    SetExtensions.configureRetry ⟨some ⟨some 1000000000, none, none, 0, 65536, none⟩,
        ⟨none, none, none⟩, false⟩ ⟨none, none, none, none, none, none, none⟩ =
      some ⟨some 1000000000, none, none, 0, 65536, none⟩ ∧
    ∃ req, (HttpRetry.call (SetExtensions.call
        ⟨some ⟨some 1000000000, none, none, 0, 65536, none⟩, ⟨none, none, none⟩, false⟩
        ⟨none, none, none, none, none, none, none⟩ 0)
        (⟨[], false⟩ : Inner Unit Unit) 0 ⟨.ok ⟨504, none, none⟩, some false⟩
        (fun _ => ⟨some (.ok ()), ⟨.ok ⟨504, none, none⟩, some false⟩⟩)).1 = [req] ∧
      req.attempt.map (·.val) = some 1 ∧
      req.timeouts.map (·.response_headers) = some (some 1000000000) :=
  ⟨rfl, final_attempt_keeps_headers_timeout _ _ 0 rfl rfl rfl _ 0 _ _⟩

end Route

end LinkerdProxy.Retry
