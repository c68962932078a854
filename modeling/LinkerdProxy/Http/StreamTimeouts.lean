import LinkerdProxy.Lib.Machine
import Mathlib.Order.MinMax

namespace LinkerdProxy.Http

/-!
# Stream deadlines (`http::stream_timeouts`)

`EnforceTimeouts` wraps a request's body and the response future, and later the response's
body, with deadlines: a lifetime limit for the whole stream, a timeout for the response headers
and one for the end of the response, both counted from the instant the request body was flushed,
and an idle timeout shared by both bodies through the instant of the last activity.

The stream is modelled as a machine over its parts: the request body, the oneshot channel by
which it reports its end, the response future and then the response body, the shared timestamp,
and a clock that each event advances by its delay.  Instants and durations are naturals.

* `flushed_at_deadline`, `headers_law` — once the request is flushed, the headers deadline is the
  earliest of the configured ones, unless the headers timeout is the longer;
* `idle_law` — an idle timeout is raised only after nothing happened on the stream for the whole
  idle timeout, by the trace invariant `IdleTrace`;
* `response_end_ignored` — with a headers timeout longer than the response-end timeout, the
  response-end timeout does not bound the wait for the headers.
-/

/-! ### Configuration and errors -/

/-- `StreamLifetime`: the instant the stream must end by, and the lifetime that gives it. -/
structure StreamLifetime where
  deadline : Nat
  lifetime : Nat
  deriving DecidableEq, Repr

/-- `StreamTimeouts`. -/
structure StreamTimeouts where
  response_headers : Option Nat
  response_end : Option Nat
  idle : Option Nat
  limit : Option StreamLifetime
  deriving DecidableEq, Repr

/-- `ResponseTimeoutError`: the headers timeout, the response timeout, or the lifetime limit. -/
inductive ResponseTimeoutError where
  | headers (timeout : Nat)
  | response (timeout : Nat)
  | lifetime (lifetime : Nat)
  deriving DecidableEq, Repr

/-- `BodyTimeoutError`: the response timeout, the lifetime limit, or the idle timeout. -/
inductive BodyTimeoutError where
  | response (timeout : Nat)
  | lifetime (lifetime : Nat)
  | idle (timeout : Nat)
  deriving DecidableEq, Repr

/-- `Deadline`: a sleep until an instant, and the error it raises. -/
structure Deadline (E : Type) where
  sleep : Nat
  error : E
  deriving DecidableEq, Repr

/-! ### Idle timers -/

/-- `Idle`: a sleep and the idle timeout; the timestamp it shares with the other body is kept
    in the stream. -/
structure Idle where
  sleep : Nat
  timeout : Nat
  deriving DecidableEq, Repr

/-- `Idle::reset`: the sleep restarts from now (and the shared timestamp becomes now). -/
def Idle.reset (i : Idle) (now : Nat) : Idle := { i with sleep := now + i.timeout }

/-- `Idle::poll_idle`: once the sleep has elapsed, the idle error when nothing happened for the
    timeout since the shared timestamp; otherwise the sleep is reset to that expiry, which is after
    now, so that the loop's next pass is pending. -/
def Idle.pollIdle (i : Idle) (timestamp now : Nat) : Option Nat × Idle :=
  if now < i.sleep then (none, i)
  else if timestamp + i.timeout ≤ now then (some i.timeout, i)
  else (none, { i with sleep := timestamp + i.timeout })

/-- The idle half of `poll_body_timeout`. -/
def pollIdleOpt (idle : Option Idle) (timestamp now : Nat) :
    Option BodyTimeoutError × Option Idle :=
  match idle with
  | some i => ((i.pollIdle timestamp now).1.map .idle, some (i.pollIdle timestamp now).2)
  | none => (none, none)

/-- `poll_body_timeout`: the deadline, cleared once it fires, then the idle timer. -/
def pollBodyTimeout (deadline : Option (Deadline BodyTimeoutError)) (idle : Option Idle)
    (timestamp now : Nat) :
    Option BodyTimeoutError × Option (Deadline BodyTimeoutError) × Option Idle :=
  match deadline with
  | some dl =>
    if dl.sleep ≤ now then (some dl.error, none, idle)
    else ((pollIdleOpt idle timestamp now).1, deadline, (pollIdleOpt idle timestamp now).2)
  | none => ((pollIdleOpt idle timestamp now).1, none, (pollIdleOpt idle timestamp now).2)

/-! ### The bodies and the response future -/

/-- What polling a body's inner body gives: a frame, after which the stream may have ended, or
    nothing yet. -/
inductive BodyPoll where
  | ready (end_stream : Bool)
  | pending
  deriving DecidableEq, Repr

/-- The oneshot channel by which the request body reports its end: nothing yet, the instant it
    sent, or the sender dropped unsent. -/
inductive Flushed where
  | empty
  | sent (instant : Nat)
  | closed
  deriving DecidableEq, Repr

/-- `RequestBody`: its deadline, its idle timer, and whether it still holds the sender. -/
structure RequestBody where
  deadline : Option (Deadline BodyTimeoutError)
  idle : Option Idle
  request_flushed : Bool
  deriving DecidableEq, Repr

/-- `ResponseBody`. -/
structure ResponseBody where
  deadline : Option (Deadline BodyTimeoutError)
  idle : Option Idle
  deriving DecidableEq, Repr

/-- `ResponseFuture`: the deadline, whether it still holds the receiver, the instant the request
    was flushed, the idle timeout, and the configuration. -/
structure ResponseFuture where
  deadline : Option (Deadline ResponseTimeoutError)
  request_flushed : Bool
  request_flushed_at : Option Nat
  idle : Option Nat
  timeouts : StreamTimeouts
  deriving DecidableEq, Repr

/-- `RequestBody::poll_frame`: a frame resets the idle timer and the shared timestamp, and at the
    end of the stream the instant is sent, once; otherwise the timeouts are checked.  Returns the
    error raised, the body, the timestamp and the channel. -/
def RequestBody.pollFrame (r : RequestBody) (now : Nat) (inner : BodyPoll) (timestamp : Nat)
    (chan : Flushed) : Option BodyTimeoutError × RequestBody × Nat × Flushed :=
  match inner with
  | .ready end_stream =>
    let timestamp := if r.idle.isSome then now else timestamp
    let r := { r with idle := r.idle.map (·.reset now) }
    if end_stream && r.request_flushed then
      (none, { r with request_flushed := false }, timestamp, .sent now)
    else (none, r, timestamp, chan)
  | .pending =>
    let p := pollBodyTimeout r.deadline r.idle timestamp now
    (p.1, { r with deadline := p.2.1, idle := p.2.2 }, timestamp, chan)

/-- `ResponseBody::poll_frame`. -/
def ResponseBody.pollFrame (b : ResponseBody) (now : Nat) (inner : BodyPoll) (timestamp : Nat) :
    Option BodyTimeoutError × ResponseBody × Nat :=
  match inner with
  | .ready _ =>
    (none, { b with idle := b.idle.map (·.reset now) }, if b.idle.isSome then now else timestamp)
  | .pending =>
    let p := pollBodyTimeout b.deadline b.idle timestamp now
    (p.1, ⟨p.2.1, p.2.2⟩, timestamp)

/-- The headers timeout `ResponseFuture::poll` arms once the request is flushed: the first arm of
    its `match` that applies. -/
def headersTimeout (response_headers response_end : Option Nat) :
    Option (Nat × ResponseTimeoutError) :=
  match response_headers, response_end with
  -- `(Some(eoh), Some(eos)) if eoh < eos`, and otherwise the next arm, `(Some(eoh), _)`
  | some eoh, some eos => if eoh < eos then some (eoh, .headers eoh) else some (eoh, .headers eoh)
  | some eoh, none => some (eoh, .headers eoh)
  | none, some eos => some (eos, .response eos)
  | none, none => none

/-- The deadline once the request is flushed at `start`: moved to `start + timeout` when that is
    earlier than the current one. -/
def armDeadline (deadline : Option (Deadline ResponseTimeoutError)) (start : Nat) :
    Option (Nat × ResponseTimeoutError) → Option (Deadline ResponseTimeoutError)
  | none => deadline
  | some (timeout, error) =>
    match deadline with
    | some dl => if start + timeout < dl.sleep then some ⟨start + timeout, error⟩ else some dl
    | none => some ⟨start + timeout, error⟩

/-- The response future once the request body was flushed at `start`. -/
def ResponseFuture.flushedAt (f : ResponseFuture) (start : Nat) : ResponseFuture :=
  { f with request_flushed := false, request_flushed_at := some start,
           deadline := armDeadline f.deadline start
             (headersTimeout f.timeouts.response_headers f.timeouts.response_end) }

/-- The first part of `ResponseFuture::poll`: take the flush instant once it is there (now, if
    the sender was dropped). -/
def ResponseFuture.flush (f : ResponseFuture) (now : Nat) (chan : Flushed) : ResponseFuture :=
  if f.request_flushed then
    match chan with
    | .empty => f
    | .sent instant => f.flushedAt instant
    | .closed => f.flushedAt now
  else f

/-- The response body's deadline: the earlier of the response-end timeout counted from `start`
    and the lifetime limit. -/
def bodyDeadline (response_end : Option Nat) (limit : Option StreamLifetime) (start : Nat) :
    Option (Deadline BodyTimeoutError) :=
  match response_end, limit with
  | some eos, some lim =>
    -- `(Some(eos), Some(lim)) if start + eos < lim.deadline`, and otherwise `(_, Some(lim))`
    if start + eos < lim.deadline then some ⟨start + eos, .response eos⟩
    else some ⟨lim.deadline, .lifetime lim.lifetime⟩
  | some eos, none => some ⟨start + eos, .response eos⟩
  | none, some lim => some ⟨lim.deadline, .lifetime lim.lifetime⟩
  | none, none => none

/-- What polling the response future's inner future gives. -/
inductive InnerPoll where
  | ready
  | pending
  | failed
  deriving DecidableEq, Repr

/-- What `ResponseFuture::poll` returns: still pending, the response with its body, a timeout,
    or the inner future's error. -/
inductive FuturePoll where
  | pending (f : ResponseFuture)
  | response (b : ResponseBody)
  | timeout (e : ResponseTimeoutError)
  | failed
  deriving DecidableEq, Repr

/-- `ResponseFuture::poll`.  Returns the outcome and the shared timestamp. -/
def ResponseFuture.poll (f : ResponseFuture) (now : Nat) (chan : Flushed) (inner : InnerPoll)
    (timestamp : Nat) : FuturePoll × Nat :=
  let f := f.flush now chan
  match inner with
  | .failed => (.failed, timestamp)
  | .pending =>
    match f.deadline with
    | some dl =>
      if dl.sleep ≤ now then (.timeout dl.error, timestamp) else (.pending f, timestamp)
    | none => (.pending f, timestamp)
  | .ready =>
    -- the headers are activity: the idle timer of the response body starts from now
    let idle := f.idle.map fun timeout => (⟨now + timeout, timeout⟩ : Idle)
    let timestamp := if f.idle.isSome then now else timestamp
    let start := f.request_flushed_at.getD now
    (.response ⟨bodyDeadline f.timeouts.response_end f.timeouts.limit start, idle⟩, timestamp)

/-! ### The stream -/

/-- The response side: the future, then the body, or done. -/
inductive RspState where
  | future (f : ResponseFuture)
  | body (b : ResponseBody)
  | done
  deriving DecidableEq, Repr

/-- A stream under `EnforceTimeouts`: the clock, the shared timestamp, the request body (until
    it is dropped), the channel and the response side. -/
structure Stream where
  clock : Nat
  timestamp : Nat
  req : Option RequestBody
  chan : Flushed
  rsp : RspState
  deriving DecidableEq, Repr

/-- `EnforceTimeouts::call` at `now`. -/
def EnforceTimeouts.call (timeouts : StreamTimeouts) (now : Nat) : Stream where
  clock := now
  timestamp := now
  req := some ⟨timeouts.limit.map fun l => ⟨l.deadline, .lifetime l.lifetime⟩,
    timeouts.idle.map fun timeout => ⟨now + timeout, timeout⟩, true⟩
  chan := .empty
  rsp := .future ⟨timeouts.limit.map fun l => ⟨l.deadline, .lifetime l.lifetime⟩, true, none,
    timeouts.idle, timeouts⟩

/-- An event, after a delay: a poll of the request body, its drop, a poll of the response future,
    or a poll of the response body. -/
inductive Event where
  | request (inner : BodyPoll)
  | request_drop
  | response (inner : InnerPoll)
  | response_body (inner : BodyPoll)
  deriving DecidableEq, Repr

/-- What the stream shows: a frame of either body, the response headers, an error. -/
inductive Out where
  | request_frame
  | request_timeout (e : BodyTimeoutError)
  | response_headers
  | response_timeout (e : ResponseTimeoutError)
  | response_failed
  | response_frame
  | response_body_timeout (e : BodyTimeoutError)
  deriving DecidableEq, Repr

/-- What a body's poll shows: the frame, or the timeout error it raised. -/
def bodyOut (frame : Out) (timeout : BodyTimeoutError → Out) :
    BodyPoll → Option BodyTimeoutError → List Out
  | .ready _, _ => [frame]
  | .pending, some e => [timeout e]
  | .pending, none => []

/-- A poll of the request body. -/
def Stream.pollRequest (s : Stream) (now : Nat) (inner : BodyPoll) : Stream × List Out :=
  match s.req with
  | some r =>
    let p := r.pollFrame now inner s.timestamp s.chan
    ({ s with req := some p.2.1, timestamp := p.2.2.1, chan := p.2.2.2 },
      bodyOut .request_frame .request_timeout inner p.1)
  | none => (s, [])

/-- Dropping the request body drops its sender, if it still holds it. -/
def Stream.dropRequest (s : Stream) : Stream :=
  match s.req with
  | some r => { s with req := none, chan := if r.request_flushed then .closed else s.chan }
  | none => s

/-- A poll of the response future. -/
def Stream.pollResponse (s : Stream) (now : Nat) (inner : InnerPoll) : Stream × List Out :=
  match s.rsp with
  | .future f =>
    let p := f.poll now s.chan inner s.timestamp
    match p.1 with
    | .pending f => ({ s with rsp := .future f, timestamp := p.2 }, [])
    | .response b => ({ s with rsp := .body b, timestamp := p.2 }, [.response_headers])
    | .timeout e => ({ s with rsp := .done, timestamp := p.2 }, [.response_timeout e])
    | .failed => ({ s with rsp := .done, timestamp := p.2 }, [.response_failed])
  | _ => (s, [])

/-- A poll of the response body. -/
def Stream.pollResponseBody (s : Stream) (now : Nat) (inner : BodyPoll) : Stream × List Out :=
  match s.rsp with
  | .body b =>
    let p := b.pollFrame now inner s.timestamp
    ({ s with rsp := .body p.2.1, timestamp := p.2.2 },
      bodyOut .response_frame .response_body_timeout inner p.1)
  | _ => (s, [])

/-- One event at `now`: a poll of a part, or the request body's drop. -/
def Stream.handle (s : Stream) (now : Nat) : Event → Stream × List Out
  | .request inner => s.pollRequest now inner
  | .request_drop => (s.dropRequest, [])
  | .response inner => s.pollResponse now inner
  | .response_body inner => s.pollResponseBody now inner

/-- One event after a delay `dt`: the clock advances, then the event is handled.  Every output
    carries the instant it happened at. -/
def Stream.step (s : Stream) (dt : Nat) (e : Event) : Stream × List (Nat × Out) :=
  let now := s.clock + dt
  let r := ({ s with clock := now } : Stream).handle now e
  (r.1, r.2.map fun o => (now, o))

/-- The stream as a machine over delayed events. -/
def machine : Machine Stream (Nat × Event) (Nat × Out) := ⟨fun s e => s.step e.1 e.2⟩

/-! ### The headers deadline -/

/-- The instant the wait for the response headers should end by, once the request body was
    flushed at `start`: the earliest of the two timeouts counted from `start` and the lifetime
    limit. -/
def headersDeadline (t : StreamTimeouts) (start : Nat) : Option Nat :=
  Option.merge min
    (Option.merge min (t.response_headers.map (start + ·)) (t.response_end.map (start + ·)))
    (t.limit.map (·.deadline))

/-- A deadline armed for a request flushed at `start` is one of the configured ones, with the
    error that names it. -/
def ArmedBy (t : StreamTimeouts) (start : Nat) (dl : Deadline ResponseTimeoutError) : Prop :=
  (∃ h, t.response_headers = some h ∧ dl = ⟨start + h, .headers h⟩) ∨
    (∃ e, t.response_end = some e ∧ dl = ⟨start + e, .response e⟩) ∨
    ∃ l, t.limit = some l ∧ dl = ⟨l.deadline, .lifetime l.lifetime⟩

/-- The deadline `call` gives the response future: the lifetime limit's. -/
def lifetimeDeadline (limit : Option StreamLifetime) : Option (Deadline ResponseTimeoutError) :=
  limit.map fun l => ⟨l.deadline, .lifetime l.lifetime⟩

theorem map_add_merge_min (c : Nat) (a b : Option Nat) :
    (Option.merge min a b).map (c + ·) = Option.merge min (a.map (c + ·)) (b.map (c + ·)) := by
  rcases a with _ | a <;> rcases b with _ | b
  all_goals simp [Nat.add_min_add_left]

/-- When the headers timeout is not the longer, the `match` picks the shorter timeout. -/
theorem headers_timeout_fst {rh re : Option Nat}
    (hle : ∀ h e, rh = some h → re = some e → h ≤ e) :
    (headersTimeout rh re).map Prod.fst = Option.merge min rh re := by
  rcases rh with _ | h
  · rcases re with _ | e <;> rfl
  · rcases re with _ | e
    · rfl
    · have hhe : h ≤ e := hle h e rfl rfl
      -- both arms for two timeouts pick the headers timeout
      show (if h < e then some (h, ResponseTimeoutError.headers h)
        else some (h, .headers h)).map Prod.fst = some (min h e)
      rw [ite_self, Nat.min_eq_left hhe]
      rfl

theorem mem_headers_timeout {rh re : Option Nat} {p : Nat × ResponseTimeoutError}
    (hp : p ∈ headersTimeout rh re) :
    (∃ h, rh = some h ∧ p = (h, .headers h)) ∨
      ∃ e, re = some e ∧ p = (e, .response e) := by
  rcases rh with _ | h <;> rcases re with _ | e
  · cases hp
  · exact .inr ⟨e, rfl, (Option.mem_some_iff.mp hp).symm⟩
  · exact .inl ⟨h, rfl, (Option.mem_some_iff.mp hp).symm⟩
  · have hp' : (if h < e then some (h, ResponseTimeoutError.headers h)
        else some (h, .headers h)) = some p := hp
    rw [ite_self, Option.some.injEq] at hp'
    exact .inl ⟨h, rfl, hp'.symm⟩

/-- Arming moves the deadline to the earlier of the two instants. -/
theorem arm_deadline_sleep (d : Option (Deadline ResponseTimeoutError)) (start : Nat)
    (o : Option (Nat × ResponseTimeoutError)) :
    (armDeadline d start o).map (·.sleep) =
      Option.merge min (o.map (start + ·.1)) (d.map (·.sleep)) := by
  rcases o with _ | ⟨timeout, error⟩
  · simp [armDeadline]
  · rcases d with _ | dl
    · rfl
    · show (if start + timeout < dl.sleep then some ⟨start + timeout, error⟩ else some dl).map
        (·.sleep) = some (min (start + timeout) dl.sleep)
      by_cases hlt : start + timeout < dl.sleep
      · rw [if_pos hlt, Nat.min_eq_left hlt.le]
        rfl
      · rw [if_neg hlt, Nat.min_eq_right (Nat.le_of_not_lt hlt)]
        rfl

theorem mem_arm_deadline {d : Option (Deadline ResponseTimeoutError)} {start : Nat}
    {o : Option (Nat × ResponseTimeoutError)} {dl : Deadline ResponseTimeoutError}
    (hdl : dl ∈ armDeadline d start o) :
    dl ∈ d ∨ ∃ p ∈ o, dl = ⟨start + p.1, p.2⟩ := by
  rcases o with _ | ⟨timeout, error⟩
  · exact .inl hdl
  · rcases d with _ | dl'
    · exact .inr ⟨_, rfl, (Option.mem_some_iff.mp hdl).symm⟩
    · have hdl' : (if start + timeout < dl'.sleep then some ⟨start + timeout, error⟩
          else some dl') = some dl := hdl
      split at hdl'
      · exact .inr ⟨_, rfl, (Option.some.inj hdl').symm⟩
      · exact .inl (Option.mem_some_iff.mpr (Option.some.inj hdl'))

/-- **The headers deadline, when the headers timeout is not the longer.**  Once the request body
    was flushed at `start`, the deadline of a future that had the lifetime limit's is the earliest
    of `start + h`, `start + e` and the limit, with the error of the deadline it is. -/
theorem flushed_at_deadline (f : ResponseFuture) (start : Nat)
    (hdl : f.deadline = lifetimeDeadline f.timeouts.limit)
    (hle : ∀ h e, f.timeouts.response_headers = some h → f.timeouts.response_end = some e →
      h ≤ e) :
    (f.flushedAt start).deadline.map (·.sleep) = headersDeadline f.timeouts start ∧
      ∀ dl ∈ (f.flushedAt start).deadline, ArmedBy f.timeouts start dl := by
  constructor
  · have hlim : f.deadline.map (·.sleep) = f.timeouts.limit.map (·.deadline) := by
      rw [hdl, lifetimeDeadline, Option.map_map]
      rfl
    have hhead : (headersTimeout f.timeouts.response_headers f.timeouts.response_end).map
        (start + ·.1) = Option.merge min (f.timeouts.response_headers.map (start + ·))
          (f.timeouts.response_end.map (start + ·)) := by
      rw [← map_add_merge_min, ← headers_timeout_fst hle, Option.map_map]
      rfl
    show (armDeadline f.deadline start _).map (·.sleep) = _
    rw [arm_deadline_sleep, hhead, hlim]
    rfl
  · intro dl hmem
    rcases mem_arm_deadline hmem with hold | ⟨p, hp, rfl⟩
    · -- the lifetime limit's deadline was kept
      rw [hdl, lifetimeDeadline] at hold
      obtain ⟨l, hl, rfl⟩ := Option.map_eq_some_iff.mp hold
      exact .inr (.inr ⟨l, hl, rfl⟩)
    · rcases mem_headers_timeout hp with ⟨h, hh, rfl⟩ | ⟨e, he, rfl⟩
      · exact .inl ⟨h, hh, rfl⟩
      · exact .inr (.inl ⟨e, he, rfl⟩)

/-- While the headers are pending, the future fails exactly when its deadline has passed, with
    that deadline's error. -/
theorem poll_pending_timeout_iff (f : ResponseFuture) (now : Nat) (chan : Flushed) (ts : Nat)
    (e : ResponseTimeoutError) :
    (f.poll now chan .pending ts).1 = .timeout e ↔
      ∃ dl ∈ (f.flush now chan).deadline, dl.sleep ≤ now ∧ dl.error = e := by
  show (match (f.flush now chan).deadline with
      | some dl => if dl.sleep ≤ now then (FuturePoll.timeout dl.error, ts)
        else (.pending (f.flush now chan), ts)
      | none => (.pending (f.flush now chan), ts)).1 = _ ↔ _
  rcases (f.flush now chan).deadline with _ | dl
  · simp
  · by_cases hle : dl.sleep ≤ now
    · simp [hle]
    · simp [hle]

/-! ### The response body's deadline -/

/-- Taking the flush instant changes neither the idle timeout nor the configuration. -/
theorem ResponseFuture.flush_idle_timeouts (f : ResponseFuture) (now : Nat) (chan : Flushed) :
    (f.flush now chan).idle = f.idle ∧ (f.flush now chan).timeouts = f.timeouts := by
  unfold ResponseFuture.flush
  split
  · split <;> exact ⟨rfl, rfl⟩
  · exact ⟨rfl, rfl⟩

/-- The response body's deadline is the response-end timeout's or the lifetime limit's, with
    the error that names it. -/
theorem mem_body_deadline {response_end : Option Nat} {limit : Option StreamLifetime}
    {start : Nat} {dl : Deadline BodyTimeoutError}
    (hdl : dl ∈ bodyDeadline response_end limit start) :
    (∃ e, response_end = some e ∧ dl = ⟨start + e, .response e⟩) ∨
      ∃ l, limit = some l ∧ dl = ⟨l.deadline, .lifetime l.lifetime⟩ := by
  rcases response_end with _ | eos <;> rcases limit with _ | lim
  · cases hdl
  · exact .inr ⟨lim, rfl, (Option.mem_some_iff.mp hdl).symm⟩
  · exact .inl ⟨eos, rfl, (Option.mem_some_iff.mp hdl).symm⟩
  · have hdl' : (if start + eos < lim.deadline then
        some (Deadline.mk (start + eos) (BodyTimeoutError.response eos))
        else some ⟨lim.deadline, .lifetime lim.lifetime⟩) = some dl := hdl
    split at hdl'
    · exact .inl ⟨eos, rfl, (Option.some.inj hdl').symm⟩
    · exact .inr ⟨lim, rfl, (Option.some.inj hdl').symm⟩

/-- **The headers law, when the headers timeout is not the longer.**  A future that had the
    lifetime limit's deadline and whose request body was flushed at `start` fails while the
    headers are pending exactly once the earliest of `start + h`, `start + e` and the limit has
    passed, with the error of a deadline configured at that instant. -/
theorem headers_law (f : ResponseFuture) (start now ts : Nat) (hf : f.request_flushed = true)
    (hdl : f.deadline = lifetimeDeadline f.timeouts.limit)
    (hle : ∀ h e, f.timeouts.response_headers = some h → f.timeouts.response_end = some e →
      h ≤ e) :
    ((∃ err, (f.poll now (.sent start) .pending ts).1 = .timeout err) ↔
        ∃ d ∈ headersDeadline f.timeouts start, d ≤ now) ∧
      ∀ err, (f.poll now (.sent start) .pending ts).1 = .timeout err →
        ∃ d ∈ headersDeadline f.timeouts start, ArmedBy f.timeouts start ⟨d, err⟩ := by
  have hflush : f.flush now (.sent start) = f.flushedAt start := by
    rw [ResponseFuture.flush, if_pos hf]
  obtain ⟨hsleep, harmed⟩ := flushed_at_deadline f start hdl hle
  refine ⟨⟨?_, ?_⟩, ?_⟩
  · rintro ⟨err, hp⟩
    obtain ⟨dl, hmem, hdle, -⟩ := (poll_pending_timeout_iff f now _ ts err).mp hp
    rw [hflush] at hmem
    refine ⟨dl.sleep, ?_, hdle⟩
    rw [← hsleep, hmem]
    rfl
  · rintro ⟨d, hd, hdle⟩
    rw [← hsleep] at hd
    obtain ⟨dl, hmem, rfl⟩ := Option.map_eq_some_iff.mp hd
    rw [← hflush] at hmem
    exact ⟨dl.error, (poll_pending_timeout_iff f now _ ts _).mpr ⟨dl, hmem, hdle, rfl⟩⟩
  · intro err hp
    obtain ⟨dl, hmem, -, rfl⟩ := (poll_pending_timeout_iff f now _ ts err).mp hp
    rw [hflush] at hmem
    refine ⟨dl.sleep, ?_, harmed dl hmem⟩
    rw [← hsleep, hmem]
    rfl

/-- A headers timeout of 10 and a response-end timeout of 5, with no idle timeout or lifetime
    limit. -/
def headers10End5 : StreamTimeouts := ⟨some 10, some 5, none, none⟩

/-- **The response-end timeout is ignored when the headers timeout is the longer.**  With
    timeouts of 10 for the headers and 5 for the response, and the request body flushed at 0,
    the wait for the headers should end by 5; yet the future is still pending at every instant
    before 10, and fails at 10 with the headers timeout. -/
theorem response_end_ignored :
    headersDeadline headers10End5 0 = some 5 ∧
      (∀ now, now < 10 →
        (machine.run (EnforceTimeouts.call headers10End5 0)
          [(0, .request (.ready true)), (now, .response .pending)]).2 = [(0, .request_frame)]) ∧
      (machine.run (EnforceTimeouts.call headers10End5 0)
        [(0, .request (.ready true)), (10, .response .pending)]).2 =
        [(0, .request_frame), (10, .response_timeout (.headers 10))] := by
  refine ⟨rfl, fun now hnow => ?_, by decide⟩
  -- the deadline armed at the flush is `0 + 10`, not yet passed
  have hpending : ¬ 10 ≤ now := Nat.not_le_of_lt hnow
  simp [Machine.run, machine, Stream.step, Stream.handle, Stream.pollRequest,
    Stream.pollResponse, EnforceTimeouts.call, RequestBody.pollFrame, ResponseFuture.poll,
    ResponseFuture.flush, ResponseFuture.flushedAt, headers10End5, headersTimeout,
    armDeadline, bodyOut, hpending]

/-! ### The idle law -/

/-- The idle errors. -/
def BodyTimeoutError.isIdle : BodyTimeoutError → Bool
  | .idle _ => true
  | _ => false

/-- The outputs that are activity on the stream: a frame of either body, or the headers. -/
def Out.isActivity : Out → Bool
  | .request_frame | .response_headers | .response_frame => true
  | _ => false

/-- The idle timeouts of either body. -/
def Out.isIdleTimeout : Out → Bool
  | .request_timeout e | .response_body_timeout e => e.isIdle
  | _ => false

/-- The idle law over the output trace of a stream started at `start`: every idle timeout comes
    at least `i` after the start and after every activity before it. -/
def IdleLaw (i start : Nat) (os : List (Nat × Out)) : Prop :=
  ∀ pre now o post, os = pre ++ (now, o) :: post → o.isIdleTimeout →
    start + i ≤ now ∧ ∀ a o', (a, o') ∈ pre → o'.isActivity → a + i ≤ now

theorem IdleLaw.nil (i start : Nat) : IdleLaw i start [] := by
  intro pre now o post h
  simp at h

/-- The law extends by one output that keeps it. -/
theorem IdleLaw.append_singleton {i start : Nat} {os : List (Nat × Out)}
    (hos : IdleLaw i start os) {now : Nat} {o : Out}
    (ho : o.isIdleTimeout → start + i ≤ now ∧
      ∀ a o', (a, o') ∈ os → o'.isActivity → a + i ≤ now) :
    IdleLaw i start (os ++ [(now, o)]) := by
  intro pre now' o' post heq hidle
  rcases List.eq_nil_or_concat post with rfl | ⟨L, b, rfl⟩
  · -- the timeout is the new output
    obtain ⟨rfl, hlast⟩ := List.append_inj' heq rfl
    simp only [List.cons.injEq, Prod.mk.injEq, and_true] at hlast
    obtain ⟨rfl, rfl⟩ := hlast
    exact ho hidle
  · -- the timeout was already in the trace
    have heq' : os ++ [(now, o)] = (pre ++ (now', o') :: L) ++ [b] := by
      rw [heq]
      simp
    exact hos pre now' o' L (List.append_inj' heq' rfl).1 hidle

/-- The stream's parts agree on the idle timeout `idle`, and the deadlines of its bodies are not
    idle ones. -/
structure Stream.Wf (idle : Option Nat) (s : Stream) : Prop where
  req : ∀ r, s.req = some r →
    r.idle.map (·.timeout) = idle ∧ ∀ dl ∈ r.deadline, dl.error.isIdle = false
  future : ∀ f, s.rsp = .future f → f.idle = idle
  body : ∀ b, s.rsp = .body b →
    b.idle.map (·.timeout) = idle ∧ ∀ dl ∈ b.deadline, dl.error.isIdle = false

theorem Idle.poll_idle_timeout (i : Idle) (ts now : Nat) :
    (i.pollIdle ts now).2.timeout = i.timeout := by
  unfold Idle.pollIdle
  split
  · rfl
  · split <;> rfl

/-- The idle timer fires only a whole timeout after the shared timestamp. -/
theorem Idle.poll_idle_fst {i : Idle} {ts now x : Nat} (h : (i.pollIdle ts now).1 = some x) :
    ts + i.timeout ≤ now ∧ x = i.timeout := by
  by_cases hs : now < i.sleep
  · rw [Idle.pollIdle, if_pos hs] at h
    cases h
  · by_cases he : ts + i.timeout ≤ now
    · rw [Idle.pollIdle, if_neg hs, if_pos he] at h
      exact ⟨he, (Option.some.inj h).symm⟩
    · rw [Idle.pollIdle, if_neg hs, if_neg he] at h
      cases h

theorem poll_idle_opt_fst {idle : Option Idle} {ts now : Nat} {e : BodyTimeoutError}
    (h : (pollIdleOpt idle ts now).1 = some e) :
    ∃ j ∈ idle, ts + j.timeout ≤ now ∧ e = .idle j.timeout := by
  rcases idle with _ | j
  · cases h
  · obtain ⟨x, hx, rfl⟩ := Option.map_eq_some_iff.mp h
    obtain ⟨hle, rfl⟩ := Idle.poll_idle_fst hx
    exact ⟨j, rfl, hle, rfl⟩

theorem poll_idle_opt_timeout (idle : Option Idle) (ts now : Nat) :
    (pollIdleOpt idle ts now).2.map (·.timeout) = idle.map (·.timeout) := by
  rcases idle with _ | j
  · rfl
  · exact congrArg some (Idle.poll_idle_timeout j ts now)

/-- A body's timeouts raise the deadline's error or the idle timer's. -/
theorem poll_body_timeout_fst {d : Option (Deadline BodyTimeoutError)} {idle : Option Idle}
    {ts now : Nat} {e : BodyTimeoutError} (h : (pollBodyTimeout d idle ts now).1 = some e) :
    (∃ dl ∈ d, dl.error = e) ∨ (pollIdleOpt idle ts now).1 = some e := by
  rcases d with _ | dl
  · exact .inr h
  · by_cases hfire : dl.sleep ≤ now
    · simp only [pollBodyTimeout, if_pos hfire, Option.some.injEq] at h
      exact .inl ⟨dl, rfl, h⟩
    · simp only [pollBodyTimeout, if_neg hfire] at h
      exact .inr h

/-- A body raises an idle error only a whole idle timeout after the shared timestamp. -/
theorem poll_body_timeout_idle {d : Option (Deadline BodyTimeoutError)} {idle : Option Idle}
    {ts now : Nat} {e : BodyTimeoutError} (hd : ∀ dl ∈ d, dl.error.isIdle = false)
    (h : (pollBodyTimeout d idle ts now).1 = some e) (he : e.isIdle = true) :
    ∃ j ∈ idle, ts + j.timeout ≤ now := by
  rcases poll_body_timeout_fst h with ⟨dl, hdl, rfl⟩ | hidle
  · rw [hd dl hdl] at he
    cases he
  · obtain ⟨j, hj, hle, -⟩ := poll_idle_opt_fst hidle
    exact ⟨j, hj, hle⟩

/-- Polling the timeouts keeps the deadline or clears it. -/
theorem poll_body_timeout_deadline {d : Option (Deadline BodyTimeoutError)} {idle : Option Idle}
    {ts now : Nat} {dl : Deadline BodyTimeoutError}
    (h : dl ∈ (pollBodyTimeout d idle ts now).2.1) : dl ∈ d := by
  rcases d with _ | dl'
  · exact h
  · by_cases hfire : dl'.sleep ≤ now
    · simp only [pollBodyTimeout, if_pos hfire] at h
      cases h
    · simp only [pollBodyTimeout, if_neg hfire] at h
      exact h

theorem poll_body_timeout_idle_timeout (d : Option (Deadline BodyTimeoutError))
    (idle : Option Idle) (ts now : Nat) :
    (pollBodyTimeout d idle ts now).2.2.map (·.timeout) = idle.map (·.timeout) := by
  rcases d with _ | dl
  · exact poll_idle_opt_timeout idle ts now
  · by_cases hfire : dl.sleep ≤ now
    · simp only [pollBodyTimeout, if_pos hfire]
    · simp only [pollBodyTimeout, if_neg hfire]
      exact poll_idle_opt_timeout idle ts now

/-- What one poll at `now` does to the idle law's data, the shared timestamp going from `ts` to
    the index: nothing shown and the timestamp kept; an activity shown and the timestamp moved
    to now; or another output shown, the timestamp kept, and an idle timeout only a whole idle
    timeout `i` after the timestamp. -/
inductive IdleStep (i ts now : Nat) : Nat → List Out → Prop
  | quiet : IdleStep i ts now ts []
  | activity {o : Out} : o.isActivity → IdleStep i ts now now [o]
  | other {o : Out} : o.isActivity = false → (o.isIdleTimeout → ts + i ≤ now) →
      IdleStep i ts now ts [o]

theorem isSome_of_map_timeout {idle : Option Idle} {i : Nat} (h : idle.map (·.timeout) = some i) :
    idle.isSome = true := by
  rcases idle with _ | j
  · cases h
  · rfl

/-- A body that was polled with no frame shows its timeout, if any, and keeps the timestamp. -/
theorem IdleStep.of_timeout {i ts now : Nat} {d : Option (Deadline BodyTimeoutError)}
    {idle : Option Idle} (hidle : idle.map (·.timeout) = some i)
    (hd : ∀ dl ∈ d, dl.error.isIdle = false) (frame : Out) (out : BodyTimeoutError → Out)
    (hout : ∀ e, (out e).isActivity = false ∧ (out e).isIdleTimeout = e.isIdle) :
    IdleStep i ts now ts (bodyOut frame out .pending (pollBodyTimeout d idle ts now).1) := by
  rcases he : (pollBodyTimeout d idle ts now).1 with _ | e
  · exact .quiet
  · refine .other (hout e).1 fun hi => ?_
    rw [(hout e).2] at hi
    obtain ⟨j, hj, hle⟩ := poll_body_timeout_idle hd he hi
    -- the timer that fired has the stream's idle timeout
    have hji : j.timeout = i := by
      rw [hj] at hidle
      exact Option.some.inj hidle
    rw [← hji]
    exact hle

/-- **The request body's poll and the idle law.** -/
theorem poll_request_idle {i : Nat} {s : Stream} (hwf : s.Wf (some i)) (now : Nat)
    (inner : BodyPoll) :
    IdleStep i s.timestamp now (s.pollRequest now inner).1.timestamp
      (s.pollRequest now inner).2 := by
  unfold Stream.pollRequest
  rcases hreq : s.req with _ | r
  · exact .quiet
  · obtain ⟨hidle, hdl⟩ := hwf.req r hreq
    rcases inner with end_stream | _
    · -- a frame: the body keeps an idle timer, so the timestamp moves to now
      have hsome : r.idle.isSome = true := isSome_of_map_timeout hidle
      have hts : (r.pollFrame now (.ready end_stream) s.timestamp s.chan).2.2.1 = now := by
        simp only [RequestBody.pollFrame, hsome, if_true]
        split <;> rfl
      show IdleStep i s.timestamp now
        (r.pollFrame now (.ready end_stream) s.timestamp s.chan).2.2.1 [.request_frame]
      rw [hts]
      exact .activity rfl
    · show IdleStep i s.timestamp now s.timestamp (bodyOut .request_frame .request_timeout
        .pending (pollBodyTimeout r.deadline r.idle s.timestamp now).1)
      exact IdleStep.of_timeout hidle hdl _ Out.request_timeout fun _ => ⟨rfl, rfl⟩

/-- **The response body's poll and the idle law.** -/
theorem poll_response_body_idle {i : Nat} {s : Stream} (hwf : s.Wf (some i)) (now : Nat)
    (inner : BodyPoll) :
    IdleStep i s.timestamp now (s.pollResponseBody now inner).1.timestamp
      (s.pollResponseBody now inner).2 := by
  unfold Stream.pollResponseBody
  rcases hrsp : s.rsp with f | b | _
  · exact .quiet
  · obtain ⟨hidle, hdl⟩ := hwf.body b hrsp
    rcases inner with end_stream | _
    · have hsome : b.idle.isSome = true := isSome_of_map_timeout hidle
      show IdleStep i s.timestamp now (if b.idle.isSome then now else s.timestamp)
        [.response_frame]
      rw [if_pos hsome]
      exact .activity rfl
    · show IdleStep i s.timestamp now s.timestamp (bodyOut .response_frame
        .response_body_timeout .pending (pollBodyTimeout b.deadline b.idle s.timestamp now).1)
      exact IdleStep.of_timeout hidle hdl _ Out.response_body_timeout fun _ => ⟨rfl, rfl⟩
  · exact .quiet

/-- With the headers pending, the future stays pending or times out, and keeps the timestamp. -/
theorem poll_pending_cases (f : ResponseFuture) (now : Nat) (chan : Flushed) (ts : Nat) :
    (f.poll now chan .pending ts).2 = ts ∧
      ((f.poll now chan .pending ts).1 = .pending (f.flush now chan) ∨
        ∃ e, (f.poll now chan .pending ts).1 = .timeout e) := by
  unfold ResponseFuture.poll
  dsimp only
  rcases (f.flush now chan).deadline with _ | dl
  · exact ⟨rfl, .inl rfl⟩
  · by_cases hle : dl.sleep ≤ now
    · simp [hle]
    · simp [hle]

/-- **The response future's poll and the idle law.**  Only the headers move the timestamp. -/
theorem poll_response_idle {i : Nat} {s : Stream} (hwf : s.Wf (some i)) (now : Nat)
    (inner : InnerPoll) :
    IdleStep i s.timestamp now (s.pollResponse now inner).1.timestamp
      (s.pollResponse now inner).2 := by
  unfold Stream.pollResponse
  rcases hrsp : s.rsp with f | b | _
  · have hidle : f.idle = some i := hwf.future f hrsp
    rcases inner with _ | _ | _
    · -- the headers: the future keeps the idle timeout, so the timestamp moves to now
      show IdleStep i s.timestamp now (if (f.flush now s.chan).idle.isSome then now
        else s.timestamp) [.response_headers]
      rw [(f.flush_idle_timeouts now s.chan).1, hidle]
      exact .activity rfl
    · -- no headers: the future stays pending or times out, and keeps the timestamp
      dsimp only
      obtain ⟨hts, hout⟩ := poll_pending_cases f now s.chan s.timestamp
      rw [hts]
      rcases hout with hf' | ⟨e, he⟩
      · rw [hf']
        exact .quiet
      · rw [he]
        exact .other rfl fun h => by cases h
    · exact .other rfl fun h => by cases h
  · exact .quiet
  · exact .quiet

/-- An activity is not an idle timeout. -/
theorem Out.is_idle_timeout_of_is_activity {o : Out} (h : o.isActivity = true) :
    o.isIdleTimeout = false := by
  cases o <;> first | rfl | cases h

/-- **Every event and the idle law.** -/
theorem handle_idle {i : Nat} {s : Stream} (hwf : s.Wf (some i)) (now : Nat) (e : Event) :
    IdleStep i s.timestamp now (s.handle now e).1.timestamp (s.handle now e).2 := by
  rcases e with inner | _ | inner | inner
  · exact poll_request_idle hwf now inner
  · -- the drop shows nothing and keeps the timestamp
    show IdleStep i s.timestamp now s.dropRequest.timestamp []
    have hts : s.dropRequest.timestamp = s.timestamp := by
      unfold Stream.dropRequest
      split <;> rfl
    rw [hts]
    exact .quiet
  · exact poll_response_idle hwf now inner
  · exact poll_response_body_idle hwf now inner

/-- Handling an event leaves the clock alone. -/
theorem handle_clock (s : Stream) (now : Nat) (e : Event) : (s.handle now e).1.clock = s.clock := by
  rcases e with inner | _ | inner | inner
  · show (s.pollRequest now inner).1.clock = s.clock
    unfold Stream.pollRequest
    split <;> rfl
  · show s.dropRequest.clock = s.clock
    unfold Stream.dropRequest
    split <;> rfl
  · show (s.pollResponse now inner).1.clock = s.clock
    unfold Stream.pollResponse
    split
    · dsimp only
      split <;> rfl
    all_goals rfl
  · show (s.pollResponseBody now inner).1.clock = s.clock
    unfold Stream.pollResponseBody
    split <;> rfl

/-! #### The parts keep the idle timeout -/

theorem reset_map_timeout (idle : Option Idle) (now : Nat) :
    (idle.map (·.reset now)).map (·.timeout) = idle.map (·.timeout) := by
  rw [Option.map_map]
  rfl

/-- A poll of the request body keeps its idle timeout, and its deadline or none. -/
theorem RequestBody.poll_frame_parts (r : RequestBody) (now : Nat) (inner : BodyPoll)
    (ts : Nat) (chan : Flushed) :
    (r.pollFrame now inner ts chan).2.1.idle.map (·.timeout) = r.idle.map (·.timeout) ∧
      ∀ dl ∈ (r.pollFrame now inner ts chan).2.1.deadline, dl ∈ r.deadline := by
  rcases inner with end_stream | _
  · unfold RequestBody.pollFrame
    dsimp only
    split <;> exact ⟨reset_map_timeout r.idle now, fun _ h => h⟩
  · exact ⟨poll_body_timeout_idle_timeout _ _ _ _, fun _ h => poll_body_timeout_deadline h⟩

/-- A poll of the response body keeps its idle timeout, and its deadline or none. -/
theorem ResponseBody.poll_frame_parts (b : ResponseBody) (now : Nat) (inner : BodyPoll)
    (ts : Nat) :
    (b.pollFrame now inner ts).2.1.idle.map (·.timeout) = b.idle.map (·.timeout) ∧
      ∀ dl ∈ (b.pollFrame now inner ts).2.1.deadline, dl ∈ b.deadline := by
  rcases inner with end_stream | _
  · exact ⟨reset_map_timeout b.idle now, fun _ h => h⟩
  · exact ⟨poll_body_timeout_idle_timeout _ _ _ _, fun _ h => poll_body_timeout_deadline h⟩

/-- The future's poll keeps its idle timeout, and gives the response body that idle timeout and
    a deadline that is not an idle one. -/
theorem ResponseFuture.poll_parts (f : ResponseFuture) (now : Nat) (chan : Flushed)
    (inner : InnerPoll) (ts : Nat) :
    (∀ f', (f.poll now chan inner ts).1 = .pending f' → f'.idle = f.idle) ∧
      ∀ b, (f.poll now chan inner ts).1 = .response b →
        b.idle.map (·.timeout) = f.idle ∧ ∀ dl ∈ b.deadline, dl.error.isIdle = false := by
  have hidle := (f.flush_idle_timeouts now chan).1
  rcases inner with _ | _ | _
  · refine ⟨(fun f' h => by cases h), ?_⟩
    intro b h
    cases h
    constructor
    · rw [Option.map_map, ← hidle]
      rcases (f.flush now chan).idle with _ | t <;> rfl
    · intro dl hdl
      rcases mem_body_deadline hdl with ⟨e, -, rfl⟩ | ⟨l, -, rfl⟩ <;> rfl
  · obtain ⟨-, hout⟩ := poll_pending_cases f now chan ts
    rcases hout with hp | ⟨e, he⟩
    · rw [hp]
      refine ⟨fun f' h => ?_, (fun b h => by cases h)⟩
      cases h
      exact hidle
    · rw [he]
      exact ⟨(fun f' h => by cases h), (fun b h => by cases h)⟩
  · exact ⟨(fun f' h => by cases h), (fun b h => by cases h)⟩

theorem Stream.Wf.pollRequest {idle : Option Nat} {s : Stream} (hwf : s.Wf idle) (now : Nat)
    (inner : BodyPoll) : (s.pollRequest now inner).1.Wf idle := by
  unfold Stream.pollRequest
  rcases hreq : s.req with _ | r
  · exact hwf
  · obtain ⟨hidle, hdl⟩ := hwf.req r hreq
    obtain ⟨hidle', hdl'⟩ := r.poll_frame_parts now inner s.timestamp s.chan
    refine ⟨?_, hwf.future, hwf.body⟩
    rintro r' ⟨⟩
    exact ⟨hidle'.trans hidle, fun dl h => hdl dl (hdl' dl h)⟩

theorem Stream.Wf.dropRequest {idle : Option Nat} {s : Stream} (hwf : s.Wf idle) :
    s.dropRequest.Wf idle := by
  unfold Stream.dropRequest
  split
  · exact ⟨(fun _ h => by cases h), hwf.future, hwf.body⟩
  · exact hwf

theorem Stream.Wf.pollResponse {idle : Option Nat} {s : Stream} (hwf : s.Wf idle) (now : Nat)
    (inner : InnerPoll) : (s.pollResponse now inner).1.Wf idle := by
  unfold Stream.pollResponse
  rcases hrsp : s.rsp with f | b | _
  · have hidle : f.idle = idle := hwf.future f hrsp
    obtain ⟨hpending, hresponse⟩ := f.poll_parts now s.chan inner s.timestamp
    dsimp only
    rcases hp : (f.poll now s.chan inner s.timestamp).1 with f' | b | e | _
    · refine ⟨hwf.req, ?_, (fun _ h => by cases h)⟩
      rintro _ ⟨⟩
      exact (hpending f' hp).trans hidle
    · refine ⟨hwf.req, (fun _ h => by cases h), ?_⟩
      rintro _ ⟨⟩
      obtain ⟨hbidle, hbdl⟩ := hresponse b hp
      exact ⟨hbidle.trans hidle, hbdl⟩
    · exact ⟨hwf.req, (fun _ h => by cases h), (fun _ h => by cases h)⟩
    · exact ⟨hwf.req, (fun _ h => by cases h), (fun _ h => by cases h)⟩
  · exact hwf
  · exact hwf

theorem Stream.Wf.pollResponseBody {idle : Option Nat} {s : Stream} (hwf : s.Wf idle)
    (now : Nat) (inner : BodyPoll) : (s.pollResponseBody now inner).1.Wf idle := by
  unfold Stream.pollResponseBody
  rcases hrsp : s.rsp with f | b | _
  · exact hwf
  · obtain ⟨hidle, hdl⟩ := hwf.body b hrsp
    obtain ⟨hidle', hdl'⟩ := b.poll_frame_parts now inner s.timestamp
    refine ⟨hwf.req, (fun _ h => by cases h), ?_⟩
    rintro _ ⟨⟩
    exact ⟨hidle'.trans hidle, fun dl h => hdl dl (hdl' dl h)⟩
  · exact hwf

/-- **Every event keeps the parts' idle timeout.** -/
theorem Stream.Wf.handle {idle : Option Nat} {s : Stream} (hwf : s.Wf idle) (now : Nat)
    (e : Event) : (s.handle now e).1.Wf idle := by
  rcases e with inner | _ | inner | inner
  · exact hwf.pollRequest now inner
  · exact hwf.dropRequest
  · exact hwf.pollResponse now inner
  · exact hwf.pollResponseBody now inner

/-! #### The law over whole runs -/

/-- The trace invariant of the idle law: the parts keep the idle timeout `i`, the timestamp lies
    between the start and the clock and after every activity shown so far, and the law holds of
    what was shown. -/
structure IdleTrace (i start : Nat) (os : List (Nat × Out)) (s : Stream) : Prop where
  wf : s.Wf (some i)
  start_le : start ≤ s.timestamp
  timestamp_le : s.timestamp ≤ s.clock
  activity_le : ∀ a o, (a, o) ∈ os → o.isActivity → a ≤ s.timestamp
  law : IdleLaw i start os

/-- A stream starts with the trace invariant. -/
theorem IdleTrace.call (t : StreamTimeouts) {i : Nat} (start : Nat) (hi : t.idle = some i) :
    IdleTrace i start [] (EnforceTimeouts.call t start) where
  wf := by
    refine ⟨?_, ?_, (fun _ h => by cases h)⟩
    · rintro _ ⟨⟩
      refine ⟨?_, ?_⟩
      · rw [Option.map_map, ← hi]
        rcases t.idle with _ | timeout <;> rfl
      · intro dl hdl
        obtain ⟨l, -, rfl⟩ := Option.map_eq_some_iff.mp hdl
        rfl
    · rintro _ ⟨⟩
      exact hi
  start_le := le_refl start
  timestamp_le := le_refl start
  activity_le := fun _ _ h => by cases h
  law := IdleLaw.nil i start

/-- **One step keeps the trace invariant.** -/
theorem IdleTrace.step {i start : Nat} {os : List (Nat × Out)} {s : Stream}
    (h : IdleTrace i start os s) (dt : Nat) (e : Event) :
    IdleTrace i start (os ++ (s.step dt e).2) (s.step dt e).1 := by
  have hwf : ({ s with clock := s.clock + dt } : Stream).Wf (some i) :=
    ⟨h.wf.req, h.wf.future, h.wf.body⟩
  have hclock := handle_clock { s with clock := s.clock + dt } (s.clock + dt) e
  have hstep := handle_idle hwf (s.clock + dt) e
  have hwf' := hwf.handle (s.clock + dt) e
  show IdleTrace i start (os ++ ((({ s with clock := s.clock + dt } : Stream).handle
    (s.clock + dt) e).2.map fun o => (s.clock + dt, o)))
    (({ s with clock := s.clock + dt } : Stream).handle (s.clock + dt) e).1
  generalize ({ s with clock := s.clock + dt } : Stream).handle (s.clock + dt) e = r
    at hclock hstep hwf'
  obtain ⟨s', out⟩ := r
  generalize hts : s'.timestamp = ts' at hstep
  have hle := h.timestamp_le
  -- the step shows nothing, an activity, or another output
  cases hstep with
  | quiet =>
    refine ⟨hwf', ?_, ?_, ?_, ?_⟩
    · rw [hts]
      exact h.start_le
    · rw [hts, hclock]
      exact Nat.le_add_right_of_le hle
    · simpa [hts] using h.activity_le
    · simpa using h.law
  | activity hact =>
    refine ⟨hwf', ?_, ?_, ?_, ?_⟩
    · rw [hts]
      exact Nat.le_add_right_of_le (le_trans h.start_le hle)
    · rw [hts, hclock]
    · intro a o hmem ho
      rw [hts]
      rcases List.mem_append.mp hmem with hold | hnew
      · exact Nat.le_add_right_of_le (le_trans (h.activity_le a o hold ho) hle)
      · simp only [List.map_cons, List.map_nil, List.mem_singleton, Prod.mk.injEq] at hnew
        exact hnew.1.le
    · refine h.law.append_singleton fun hidle => ?_
      rw [Out.is_idle_timeout_of_is_activity hact] at hidle
      cases hidle
  | other hact hidle =>
    refine ⟨hwf', ?_, ?_, ?_, ?_⟩
    · rw [hts]
      exact h.start_le
    · rw [hts, hclock]
      exact Nat.le_add_right_of_le hle
    · intro a o hmem ho
      rw [hts]
      rcases List.mem_append.mp hmem with hold | hnew
      · exact h.activity_le a o hold ho
      · simp only [List.map_cons, List.map_nil, List.mem_singleton, Prod.mk.injEq] at hnew
        obtain ⟨-, rfl⟩ := hnew
        rw [hact] at ho
        cases ho
    · refine h.law.append_singleton fun hto => ?_
      -- the timeout came a whole idle timeout after the timestamp, which is after the start and
      -- after every activity
      have hwait : s.timestamp + i ≤ s.clock + dt := hidle hto
      refine ⟨by have := h.start_le; omega, fun a o hmem ho => ?_⟩
      have ha : a ≤ s.timestamp := h.activity_le a o hmem ho
      omega

/-- **The idle law.**  On every run of a stream with the idle timeout `i`, an idle timeout is
    raised only when the idle timeout has passed since the stream started and since every frame
    of either body and the headers before it. -/
theorem idle_law (t : StreamTimeouts) {i : Nat} (start : Nat) (hi : t.idle = some i)
    (es : List (Nat × Event)) :
    IdleLaw i start (machine.run (EnforceTimeouts.call t start) es).2 := by
  have h := Machine.run_trace_invariant machine (fun _ => True) (IdleTrace i start)
    (fun _ _ e _ h => h.step e.1 e.2) es [] _ (fun _ _ => trivial) (IdleTrace.call t start hi)
  rw [List.nil_append] at h
  exact h.law

/-- A stream whose only timeout is an idle timeout of one second. -/
theorem idle_law_idle_only :
    IdleLaw 1000000000 0
      (machine.run (EnforceTimeouts.call ⟨none, none, some 1000000000, none⟩ 0) []).2 :=
  idle_law ⟨none, none, some 1000000000, none⟩ 0 rfl []

end LinkerdProxy.Http
