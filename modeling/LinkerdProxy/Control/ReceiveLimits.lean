import LinkerdProxy.Lib.Machine
import LinkerdProxy.Breaker.Basic

namespace LinkerdProxy.Control

open LinkerdProxy.Breaker (DURATION_MAX)

/-!
# Receive limits of control-plane streams (`linkerd_tonic_stream`)

A request on a control-plane gRPC stream is bounded by `ReceiveLimits`, read from the
environment by `mk_receive_limits`.  `LimitReceiveFuture::new` arms one receive sleep, with the
initial timeout, or else the idle one, when the request is made; the future fails when it
elapses before the response, and otherwise hands it to the `LimitReceiveStream`, with a lifetime
sleep that starts then.  The stream ends when the lifetime elapses, and when the receive sleep
elapses with no item ready: with an error while no item has been received, and quietly after.
Each item resets the receive sleep to the idle timeout, when there is one.

Instants and durations are nanoseconds; the inner future and the inner stream are given, at
each poll, by what they return then.

* `LimitReceiveStream.run_lifetime`, `run_recv_init`, `run_recv_of_idle`, `run_recv_of_no_idle`
  — what a run of polls leaves in each of the stream's timers;
* `first_item_timeout_iff` — before any item, a poll with none ready fails exactly when the
  initial timeout has passed since the request;
* `idle_timeout_iff` — with an idle timeout `d`, after an item, a poll with none ready ends the
  stream exactly when no item was read in the last `d`;
* `ends_after_lifetime` — the stream ends once its lifetime has passed since the response;
* `receive_timer_ends_stream_without_idle` — with an initial timeout and no idle timeout, which
  `mk_receive_limits` accepts, the initial sleep is never reset, and ends the stream at the first
  poll after it with no item ready, however many items came before.
-/

/-! ### The limits -/

/-- `ReceiveLimits`. -/
structure ReceiveLimits where
  initial : Option Nat
  idle : Option Nat
  lifetime : Option Nat
  deriving DecidableEq, Repr

def ENV_INIT : String := "LINKERD2_PROXY_CONTROL_STREAM_INITIAL_TIMEOUT"
def ENV_IDLE : String := "LINKERD2_PROXY_CONTROL_STREAM_IDLE_TIMEOUT"
def ENV_LIFE : String := "LINKERD2_PROXY_CONTROL_STREAM_LIFETIME"

/-- `mk_receive_limits`, given the three variables as they parse: a refused combination is
    `InvalidEnvVar`, given here by the message logged with it. -/
def mkReceiveLimits (initial idle lifetime : Option Nat) : Except String ReceiveLimits :=
  if initial.getD 0 > idle.getD DURATION_MAX then
    .error (ENV_INIT ++ " must be less than " ++ ENV_IDLE)
  else if initial.getD 0 > lifetime.getD DURATION_MAX then
    .error (ENV_INIT ++ " must be less than " ++ ENV_LIFE)
  else if idle.getD 0 > lifetime.getD DURATION_MAX then
    .error (ENV_IDLE ++ " must be less than " ++ ENV_LIFE)
  else .ok ⟨initial, idle, lifetime⟩

/-- Accepted limits are the variables as they were given. -/
theorem mk_receive_limits_ok {initial idle lifetime : Option Nat} {limits : ReceiveLimits}
    (h : mkReceiveLimits initial idle lifetime = .ok limits) :
    limits = ⟨initial, idle, lifetime⟩ := by
  unfold mkReceiveLimits at h
  split at h
  · cases h
  · split at h
    · cases h
    · split at h
      · cases h
      · cases h
        rfl

/-! ### Statuses, polls and sleeps -/

/-- `tonic::Code::DeadlineExceeded`. -/
def DEADLINE_EXCEEDED : Nat := 4

/-- A `tonic::Status`: its code and its message. -/
structure Status where
  code : Nat
  message : String
  deriving DecidableEq, Repr

/-- `Status::deadline_exceeded`. -/
def Status.deadline_exceeded (message : String) : Status := ⟨DEADLINE_EXCEEDED, message⟩

/-- `std::task::Poll`. -/
inductive Poll (α : Type) where
  | ready (a : α)
  | pending
  deriving DecidableEq, Repr

/-- `time::sleep(duration)` at `now`, by its deadline.  A sleep of `Duration::MAX`, given as
    `none`, does not elapse. -/
def sleep (now : Nat) (duration : Option Nat) : Option Nat := duration.map (now + ·)

/-- Polling a sleep: ready once its deadline is reached. -/
def elapsed (deadline : Option Nat) (now : Nat) : Bool :=
  match deadline with
  | some t => decide (t ≤ now)
  | none => false

@[simp] theorem elapsed_none (now : Nat) : elapsed none now = false := rfl

@[simp] theorem elapsed_some (t now : Nat) : elapsed (some t) now = decide (t ≤ now) := rfl

theorem elapsed_sleep_iff (start now : Nat) (duration : Option Nat) :
    elapsed (sleep start duration) now = true ↔
      ∃ d, duration = some d ∧ start + d ≤ now := by
  cases duration <;> simp [sleep]

/-! ### The response future -/

/-- `LimitReceiveFuture`: the limits, and the receive sleep, which the stream takes over. -/
structure LimitReceiveFuture where
  limits : ReceiveLimits
  recv : Option Nat
  deriving DecidableEq, Repr

/-- `LimitReceiveStream`: the lifetime sleep, the receive sleep, the timeout the receive sleep is
    reset to after each item, and whether no item has been received yet. -/
structure LimitReceiveStream where
  lifetime : Option Nat
  recv : Option Nat
  recv_timeout : Option Nat
  recv_init : Bool
  deriving DecidableEq, Repr

namespace LimitReceiveFuture

/-- `LimitReceiveFuture::new`, when the request is made: the receive sleep lasts the initial
    timeout, or else the idle one. -/
def new (limits : ReceiveLimits) (now : Nat) : LimitReceiveFuture :=
  ⟨limits, sleep now (limits.initial.or limits.idle)⟩

/-- `LimitReceiveFuture::poll`, given the inner future's poll: its error as it is (`res?`), its
    response as a stream that takes the receive sleep over and starts the lifetime sleep; while
    it is pending, the receive sleep's expiry. -/
def poll (f : LimitReceiveFuture) (now : Nat) (inner : Poll (Except Status Unit)) :
    Poll (Except Status LimitReceiveStream) :=
  match inner with
  | .ready (.error status) => .ready (.error status)
  | .ready (.ok ()) =>
    .ready (.ok { lifetime := sleep now f.limits.lifetime, recv := f.recv,
                  recv_timeout := f.limits.idle, recv_init := true })
  | .pending =>
    if elapsed f.recv now then
      .ready (.error (.deadline_exceeded "initial item not received within timeout"))
    else .pending

/-- The stream a response is handed to. -/
theorem pollResponse (f : LimitReceiveFuture) (now : Nat) :
    f.poll now (.ready (.ok ())) =
      .ready (.ok ⟨sleep now f.limits.lifetime, f.recv, f.limits.idle, true⟩) := rfl

end LimitReceiveFuture

/-! ### The stream -/

namespace LimitReceiveStream

variable {α : Type}

/-- `LimitReceiveStream::poll_next`, given the inner stream's poll. -/
def poll_next (s : LimitReceiveStream) (now : Nat) (inner : Poll (Option (Except Status α))) :
    Poll (Option (Except Status α)) × LimitReceiveStream :=
  if elapsed s.lifetime now then (.ready none, s)
  else
    match inner with
    | .ready res =>
      -- every item resets the receive sleep, when there is an idle timeout
      let s := { s with recv_init := false }
      match s.recv_timeout with
      | some timeout => (.ready res, { s with recv := some (now + timeout) })
      | none => (.ready res, s)
    | .pending =>
      if elapsed s.recv now then
        (.ready (if s.recv_init then
            some (.error (.deadline_exceeded "Initial update not received within timeout"))
          else none), s)
      else (.pending, s)

/-- Whether a poll reads the inner stream: its lifetime has not elapsed, and the inner stream is
    ready. -/
def reads (lifetime : Option Nat) (e : Nat × Poll (Option (Except Status α))) : Bool :=
  !elapsed lifetime e.1 && e.2 matches .ready _

/-- The receive sleep after an item read at `now`. -/
def reset (s : LimitReceiveStream) (now : Nat) : Option Nat :=
  match s.recv_timeout with
  | some timeout => some (now + timeout)
  | none => s.recv

/-- **A poll.**  One that reads an item returns it and resets the receive sleep; one that does
    not leaves the timers as they are. -/
theorem poll_next_of_reads (s : LimitReceiveStream) (e : Nat × Poll (Option (Except Status α)))
    (h : reads s.lifetime e = true) :
    (s.poll_next e.1 e.2).2 = { s with recv_init := false, recv := s.reset e.1 } := by
  obtain ⟨now, inner⟩ := e
  simp only [reads, Bool.and_eq_true, Bool.not_eq_true'] at h
  obtain ⟨hlife, hready⟩ := h
  cases inner with
  | pending => cases hready
  | ready res =>
    simp only [poll_next, hlife, reset]
    cases s.recv_timeout <;> rfl

theorem poll_next_of_not_reads (s : LimitReceiveStream)
    (e : Nat × Poll (Option (Except Status α))) (h : reads s.lifetime e = false) :
    (s.poll_next e.1 e.2).2 = s := by
  obtain ⟨now, inner⟩ := e
  cases hlife : elapsed s.lifetime now
  · cases inner with
    | ready res => simp [reads, hlife] at h
    | pending =>
      simp only [poll_next, hlife, Bool.false_eq_true, ↓reduceIte]
      split <;> rfl
  · simp [poll_next, hlife]

/-- The stream as a machine: polled at an instant, with the inner stream's poll then. -/
def machine (α : Type) :
    Machine LimitReceiveStream (Nat × Poll (Option (Except Status α)))
      (Poll (Option (Except Status α))) :=
  ⟨fun s e => ((s.poll_next e.1 e.2).2, [(s.poll_next e.1 e.2).1])⟩

/-- The instant of the last poll of a run that read the inner stream. -/
def lastRead (lifetime : Option Nat) (es : List (Nat × Poll (Option (Except Status α)))) :
    Option Nat :=
  ((es.filter (reads lifetime)).getLast?).map (·.1)

theorem lastRead_cons (lifetime : Option Nat) (e : Nat × Poll (Option (Except Status α)))
    (es : List (Nat × Poll (Option (Except Status α)))) :
    lastRead lifetime (e :: es) =
      (lastRead lifetime es).or (if reads lifetime e then some e.1 else none) := by
  unfold lastRead
  by_cases h : reads lifetime e = true
  · rw [List.filter_cons_of_pos h, if_pos h]
    cases hf : (es.filter (reads lifetime)).getLast? with
    | none =>
      rw [List.getLast?_eq_none_iff] at hf
      simp [hf]
    | some x =>
      rw [List.getLast?_cons, hf]
      rfl
  · rw [List.filter_cons_of_neg h, if_neg h, Option.or_none]

/-! ### Runs of polls -/

/-- The lifetime sleep and the idle timeout never change. -/
theorem run_lifetime (s : LimitReceiveStream)
    (es : List (Nat × Poll (Option (Except Status α)))) :
    ((machine α).run s es).1.lifetime = s.lifetime ∧
      ((machine α).run s es).1.recv_timeout = s.recv_timeout := by
  have hstep : ∀ (t : LimitReceiveStream) (e : Nat × Poll (Option (Except Status α))),
      True → t.lifetime = s.lifetime ∧ t.recv_timeout = s.recv_timeout →
      ((machine α).step t e).1.lifetime = s.lifetime ∧
        ((machine α).step t e).1.recv_timeout = s.recv_timeout := by
    intro t e _ ht
    show (t.poll_next e.1 e.2).2.lifetime = _ ∧ (t.poll_next e.1 e.2).2.recv_timeout = _
    cases hr : reads t.lifetime e
    · rw [poll_next_of_not_reads t e hr]
      exact ht
    · rw [poll_next_of_reads t e hr]
      exact ht
  exact Machine.run_invariant (machine α) (fun _ => True) _ hstep es s (fun _ _ => trivial)
    ⟨rfl, rfl⟩

/-- Whether the lifetime has elapsed does not depend on the polls before. -/
theorem run_elapsed_lifetime (s : LimitReceiveStream)
    (es : List (Nat × Poll (Option (Except Status α)))) (now : Nat) :
    elapsed ((machine α).run s es).1.lifetime now = elapsed s.lifetime now := by
  rw [(run_lifetime s es).1]

/-- After a run, no item has been received exactly when none had before and no poll read one. -/
theorem run_recv_init (s : LimitReceiveStream)
    (es : List (Nat × Poll (Option (Except Status α)))) :
    ((machine α).run s es).1.recv_init = (s.recv_init && (lastRead s.lifetime es).isNone) := by
  induction es generalizing s with
  | nil => simp [lastRead]
  | cons e es ih =>
    rw [Machine.run_cons, ih, lastRead_cons]
    show ((s.poll_next e.1 e.2).2.recv_init &&
      (lastRead (s.poll_next e.1 e.2).2.lifetime es).isNone) = _
    cases hr : reads s.lifetime e
    · rw [poll_next_of_not_reads s e hr]
      simp
    · rw [poll_next_of_reads s e hr]
      cases lastRead s.lifetime es <;> simp

/-- With an idle timeout `d`, the receive sleep of a run ends `d` after the last poll that read
    an item, or is the one it started with if none did. -/
theorem run_recv_of_idle (s : LimitReceiveStream) {d : Nat} (hd : s.recv_timeout = some d)
    (es : List (Nat × Poll (Option (Except Status α)))) :
    ((machine α).run s es).1.recv =
      match lastRead s.lifetime es with
      | some t => some (t + d)
      | none => s.recv := by
  induction es generalizing s with
  | nil => rfl
  | cons e es ih =>
    rw [Machine.run_cons, lastRead_cons]
    show ((machine α).run (s.poll_next e.1 e.2).2 es).1.recv = _
    cases hr : reads s.lifetime e
    · rw [poll_next_of_not_reads s e hr, ih s hd]
      simp
    · rw [poll_next_of_reads s e hr, ih { s with recv_init := false, recv := s.reset e.1 } hd]
      cases lastRead s.lifetime es <;> simp [reset, hd]

/-- Without an idle timeout, the receive sleep of a run is the one it started with. -/
theorem run_recv_of_no_idle (s : LimitReceiveStream) (hd : s.recv_timeout = none)
    (es : List (Nat × Poll (Option (Except Status α)))) :
    ((machine α).run s es).1.recv = s.recv := by
  induction es generalizing s with
  | nil => rfl
  | cons e es ih =>
    rw [Machine.run_cons]
    show ((machine α).run (s.poll_next e.1 e.2).2 es).1.recv = _
    cases hr : reads s.lifetime e
    · rw [poll_next_of_not_reads s e hr, ih s hd]
    · rw [poll_next_of_reads s e hr, ih { s with recv_init := false, recv := s.reset e.1 } hd]
      simp [reset, hd]

/-- A poll with no item ready, before the lifetime ends: it ends the stream when the receive
    sleep has elapsed, with an error while no item has been received. -/
theorem poll_next_pending (s : LimitReceiveStream) (now : Nat)
    (hlife : elapsed s.lifetime now = false) :
    (s.poll_next now (.pending : Poll (Option (Except Status α)))).1 =
      if elapsed s.recv now then
        .ready (if s.recv_init then
          some (.error (.deadline_exceeded "Initial update not received within timeout"))
        else none)
      else .pending := by
  simp only [poll_next, hlife, Bool.false_eq_true, ↓reduceIte]
  split <;> rfl

/-- A run that reads no item leaves the receive sleep as it was. -/
theorem run_recv_of_no_read (s : LimitReceiveStream)
    {es : List (Nat × Poll (Option (Except Status α)))} (h : lastRead s.lifetime es = none) :
    ((machine α).run s es).1.recv = s.recv := by
  cases hd : s.recv_timeout with
  | none => exact run_recv_of_no_idle s hd es
  | some d => rw [run_recv_of_idle s hd es, h]

end LimitReceiveStream

/-! ### The stream of a response -/

section Limits

open LimitReceiveStream

variable {α : Type} (limits : ReceiveLimits) (start r : Nat)

/-- The stream a response received at `r` is handed to, for a request made at `start`. -/
def handed : LimitReceiveStream :=
  ⟨sleep r limits.lifetime, sleep start (limits.initial.or limits.idle), limits.idle, true⟩

theorem poll_response_handed :
    (LimitReceiveFuture.new limits start).poll r (.ready (.ok ())) =
      .ready (.ok (handed limits start r)) := rfl

theorem handed_of_poll {s : LimitReceiveStream}
    (h : (LimitReceiveFuture.new limits start).poll r (.ready (.ok ())) = .ready (.ok s)) :
    s = handed limits start r := by
  rw [poll_response_handed] at h
  injection h with h
  injection h with h
  exact h.symm

/-- **The first item's deadline.**  Until an item is read, a poll of the stream with none ready,
    before its lifetime ends, fails exactly when the initial timeout, or else the idle one, has
    passed since the request. -/
theorem first_item_timeout_iff (es : List (Nat × Poll (Option (Except Status α))))
    (hnone : lastRead (sleep r limits.lifetime) es = none) {now : Nat}
    (hlife : elapsed (sleep r limits.lifetime) now = false) :
    (((machine α).run (handed limits start r) es).1.poll_next now
      (.pending : Poll (Option (Except Status α)))).1 =
      if ∃ d, limits.initial.or limits.idle = some d ∧ start + d ≤ now then
        .ready (some (.error (.deadline_exceeded "Initial update not received within timeout")))
      else .pending := by
  have hinit := run_recv_init (handed limits start r) es
  have hrecv := run_recv_of_no_read (handed limits start r) hnone
  have hlife' := (run_elapsed_lifetime (handed limits start r) es now).trans hlife
  rw [poll_next_pending _ now hlife', hrecv, hinit]
  simp only [handed, hnone, Option.isNone_none, Bool.and_true, if_true]
  by_cases hd : ∃ d, limits.initial.or limits.idle = some d ∧ start + d ≤ now
  · rw [if_pos ((elapsed_sleep_iff _ _ _).mpr hd), if_pos hd]
  · rw [if_neg (fun he => hd ((elapsed_sleep_iff _ _ _).mp he)), if_neg hd]

/-- No item by an initial timeout of one. -/
theorem first_item_timeout_iff_initial :
    (((machine Unit).run (handed ⟨some 1, none, none⟩ 0 0) []).1.poll_next 1
      (.pending : Poll (Option (Except Status Unit)))).1 =
      if ∃ d, (some 1 : Option Nat).or none = some d ∧ 0 + d ≤ 1 then
        .ready (some (.error (.deadline_exceeded "Initial update not received within timeout")))
      else .pending :=
  first_item_timeout_iff ⟨some 1, none, none⟩ 0 0 [] rfl rfl

/-- **The lifetime.**  Once the lifetime has passed since the response, every poll ends the
    stream, whatever the inner stream holds. -/
theorem ends_after_lifetime (es : List (Nat × Poll (Option (Except Status α)))) {L now : Nat}
    (hL : limits.lifetime = some L) (hnow : r + L ≤ now)
    (inner : Poll (Option (Except Status α))) :
    (((machine α).run (handed limits start r) es).1.poll_next now inner).1 = .ready none := by
  have he := (run_elapsed_lifetime (handed limits start r) es now).trans
    ((elapsed_sleep_iff _ _ _).mpr ⟨L, hL, hnow⟩)
  simp only [poll_next, he, if_true]

/-- A lifetime of five, polled at 5. -/
theorem ends_after_lifetime_five :
    (((machine Unit).run (handed ⟨none, none, some 5⟩ 0 0) []).1.poll_next 5
      (.pending : Poll (Option (Except Status Unit)))).1 = .ready none :=
  ends_after_lifetime ⟨none, none, some 5⟩ 0 0 [] rfl (by decide) .pending

/-- **The idle timeout.**  With an idle timeout `d`, once an item was read, a poll with none
    ready, before the lifetime ends, ends the stream exactly when no item was read in the last `d`:
    the last item was read at `t` with `t + d ≤ now`. -/
theorem idle_timeout_iff (es : List (Nat × Poll (Option (Except Status α)))) {d t now : Nat}
    (hd : limits.idle = some d) (hlast : lastRead (sleep r limits.lifetime) es = some t)
    (hlife : elapsed (sleep r limits.lifetime) now = false) :
    (((machine α).run (handed limits start r) es).1.poll_next now
      (.pending : Poll (Option (Except Status α)))).1 =
      if t + d ≤ now then .ready none else .pending := by
  have hinit := run_recv_init (handed limits start r) es
  have hrecv := run_recv_of_idle (handed limits start r) hd es
  have hlife' := (run_elapsed_lifetime (handed limits start r) es now).trans hlife
  rw [poll_next_pending _ now hlife', hrecv, hinit]
  simp only [handed, hlast, Option.isNone_some, Bool.and_false, elapsed_some]
  by_cases ht : t + d ≤ now <;> simp [ht]

/-- An item at 0 and an idle timeout of two, polled at 3. -/
theorem idle_timeout_iff_after_item :
    (((machine Unit).run (handed ⟨none, some 2, none⟩ 0 0) [(0, .ready (some (.ok ())))]).1.poll_next
      3 (.pending : Poll (Option (Except Status Unit)))).1 =
      if 0 + 2 ≤ 3 then .ready none else .pending :=
  idle_timeout_iff ⟨none, some 2, none⟩ 0 0 _ rfl rfl rfl

/-- With an initial timeout `i` and no idle timeout, which `mk_receive_limits` accepts, the
    receive sleep armed with the request is never reset: once an item has been read, the first
    poll with none ready after `i`, before the lifetime ends, ends the stream. -/
theorem receive_timer_ends_stream_without_idle {i : Nat} {lifetime : Option Nat}
    (hlim : mkReceiveLimits (some i) none lifetime = .ok limits) {s : LimitReceiveStream}
    (hrsp : (LimitReceiveFuture.new limits start).poll r (.ready (.ok ())) = .ready (.ok s))
    (es : List (Nat × Poll (Option (Except Status α))))
    (hread : (lastRead (sleep r lifetime) es).isSome = true) {now : Nat} (hnow : start + i ≤ now)
    (hlife : elapsed (sleep r lifetime) now = false) :
    (((machine α).run s es).1.poll_next now
      (.pending : Poll (Option (Except Status α)))).1 = .ready none := by
  obtain rfl := mk_receive_limits_ok hlim
  obtain rfl := handed_of_poll _ start r hrsp
  have hinit := run_recv_init (handed ⟨some i, none, lifetime⟩ start r) es
  -- no idle timeout: the receive sleep is still the one armed with the request
  have hrecv := run_recv_of_no_idle (handed ⟨some i, none, lifetime⟩ start r) rfl es
  have hlife' :=
    (run_elapsed_lifetime (handed ⟨some i, none, lifetime⟩ start r) es now).trans hlife
  rw [poll_next_pending _ now hlife', hrecv, hinit]
  have hnone : (lastRead (sleep r lifetime) es).isNone = false := by
    cases h : lastRead (sleep r lifetime) es with
    | none => rw [h] at hread; cases hread
    | some t => rfl
  have hfire : elapsed (sleep start ((some i).or none)) now = true :=
    (elapsed_sleep_iff _ _ _).mpr ⟨i, rfl, hnow⟩
  simp only [handed, hnone, hfire, Bool.and_false, Bool.false_eq_true, if_true, if_false]

/-- A stream with an initial timeout of one nanosecond and no other limit: an item at `0`, and
    at `1` the stream ends although the limits set no idle timeout. -/
theorem receive_timer_ends_stream_one_item :
    mkReceiveLimits (some 1) none none = .ok ⟨some 1, none, none⟩ ∧
      (LimitReceiveFuture.new ⟨some 1, none, none⟩ 0).poll 0 (.ready (.ok ())) =
        .ready (.ok ⟨none, some 1, none, true⟩) ∧
      (lastRead (sleep 0 none) [((0 : Nat), (.ready (some (.ok ())) :
        Poll (Option (Except Status Unit))))]).isSome = true ∧
      (((machine Unit).run ⟨none, some 1, none, true⟩
        [(0, .ready (some (.ok ())))]).1.poll_next 1
        (.pending : Poll (Option (Except Status Unit)))).1 = .ready none := by
  have hlim : mkReceiveLimits (some 1) none none = .ok ⟨some 1, none, none⟩ := by decide
  exact ⟨hlim, rfl, rfl,
    receive_timer_ends_stream_without_idle ⟨some 1, none, none⟩ 0 0 hlim rfl
    _ rfl (by decide) rfl⟩

end Limits

end LinkerdProxy.Control
