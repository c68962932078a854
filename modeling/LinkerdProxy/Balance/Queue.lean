import LinkerdProxy.Lib.Machine
import Mathlib.Logic.Function.Basic

namespace LinkerdProxy.Balance

/-!
# The balancer's request queue (`proxy::balance::queue`)

`PoolQueue` hands requests to a worker task over a bounded channel; each message carries a
oneshot sender on which the worker answers with the pool's response future, a `FailFastError` or
the `TerminalFailure`.  The worker drives the pool and applies discovery updates while waiting for
a message, then waits for the pool to be ready before dispatching.  If the pool stays unready for
the failfast timeout, `Failfast` enters its failfast state and shuts the gate in front of the
queue, and requests are failed until the pool is ready again.  A discovery or pool error ends the
worker: the failure is recorded, the channel closed, and what is left in it failed.

The queue is modelled as a machine over the channel (messages by id, reservations, whether it is
closed), the worker's place in its loop, the failfast state and the gate, the recorded failure,
and a clock.  An input is a caller's operation (through the gate), a tick, or what the worker
observes when it is polled: the pool ready, unready or failed, a discovery update, end or error,
or a message received.  Each output carries the instant it happened at.

* `Queue.Wf` — the gate is shut exactly while the state is failfast, the waiting state belongs
  to a worker past its main loop, a closed channel has its failure recorded;
* `Queue.balanced_step` — the ledger of one step: a message leaves the queue's hands only with
  an answer; `Queue.step_shows` — what each input can show;
* `QueueTrace.step` — the trace invariant: every message accepted is queued, in the worker's
  hands, or answered, exactly one of them, and the failfast and terminal laws;
* `queue_law` — all of it over every run;
* `failfast_left_on_failure` — the failfast state is left, and the gate opened, when the pool
  fails without ever becoming ready;
* `shut_after_close` — a queue that closes in the failfast state keeps its gate shut for good.
-/

/-! ### Failfast -/

/-- `gate::State`, as the failfast sets it: open, or shut. -/
inductive Gate where
  | opened
  | shut
  deriving DecidableEq, Repr

/-- `failfast::State`: waiting for the pool since an instant, or failing fast since one. -/
inductive State where
  | waiting (since : Nat)
  | failfast (since : Nat)
  deriving DecidableEq, Repr

/-- `Failfast`: the timeout, the deadline of its sleep, the state (none while the pool is
    ready), and the gate it keeps. -/
structure Failfast where
  timeout : Nat
  sleep : Nat
  state : Option State
  gate : Gate
  deriving DecidableEq, Repr

namespace Failfast

/-- `Failfast::new`: no state, the gate open; the sleep is armed by `entered` before it is
    polled. -/
def new (timeout : Nat) : Failfast := ⟨timeout, 0, none, .opened⟩

/-- `Failfast::is_active`. -/
def isActive (f : Failfast) : Bool :=
  match f.state with
  | some (.failfast _) => true
  | _ => false

/-- `Failfast::set_ready`: the state is taken, and leaving the failfast state opens the gate. -/
def setReady (f : Failfast) : Failfast × Option State :=
  match f.state with
  | some (.failfast since) => ({ f with state := none, gate := .opened }, some (.failfast since))
  | some (.waiting since) => ({ f with state := none }, some (.waiting since))
  | none => (f, none)

/-- The sleep of `entered` polled at `now`, waiting since `since`: once it ran out, the failfast
    state is entered and the gate shut. -/
def wait (f : Failfast) (since now : Nat) : Failfast × Bool :=
  if f.sleep ≤ now then ({ f with state := some (.failfast since), gate := .shut }, true)
  else (f, false)

/-- `Failfast::entered` polled at `now`: ready at once in the failfast state; otherwise its
    sleep, armed for the timeout from now on the first poll. -/
def entered (f : Failfast) (now : Nat) : Failfast × Bool :=
  match f.state with
  | some (.failfast _) => (f, true)
  | some (.waiting since) => f.wait since now
  | none => { f with sleep := now + f.timeout, state := some (.waiting now) }.wait now now

end Failfast

/-! ### The queue and its worker -/

/-- What a message's oneshot receives: the pool's response future, a `FailFastError`, or the
    `TerminalFailure`. -/
inductive Answer where
  | future
  | failfast
  | terminal
  deriving DecidableEq, Repr

/-- `PoolDriver::call`: a `FailFastError` in the failfast state, the pool's future otherwise. -/
def callAnswer (f : Failfast) : Answer := if f.isActive then .failfast else .future

/-- Where the worker is: in the main loop's `select!`, driving the pool and awaiting a message;
    in `ready_pool_for_request` with a message; in `Terminate::close`; or returned. -/
inductive Phase where
  | idle
  | readying (msg : Nat)
  | draining
  | done
  deriving DecidableEq, Repr

/-- The queue: the clock, the channel's capacity, the failfast, the worker's place, the messages
    in the channel by id, the reservations callers hold, whether a `PoolQueue` is left, whether
    the channel is closed, whether a failure is recorded in `Terminate`, whether discovery has
    ended, the next message's id, and which callers dropped their response future. -/
structure Queue where
  now : Nat
  capacity : Nat
  failfast : Failfast
  phase : Phase
  queue : List Nat
  permits : Nat
  senders : Bool
  closed : Bool
  terminal : Bool
  discovery_closed : Bool
  next : Nat
  dropped : Nat → Bool

/-- What the queue shows: a caller's reservation, a caller's `poll_ready` failing with the
    recorded failure or panicking on its `expect`, a message accepted, a message answered (and
    whether its caller still listened), the failfast state armed, entered or left (from the
    failfast state or not), the failure recorded, the channel closed. -/
inductive Out where
  | reserved
  | rejected
  | panicked
  | accepted (msg : Nat)
  | answered (msg : Nat) (answer : Answer) (delivered : Bool)
  | armed
  | entered
  | left (failfast : Bool)
  | recorded
  | closed
  deriving DecidableEq, Repr

/-- The inputs: a caller's `poll_ready` or `call` through the gate, a caller dropping its
    response future, every caller gone, a tick; and what the worker observes when polled. -/
inductive Event where
  | pollReady
  | call
  | drop_response (msg : Nat)
  | drop_callers
  | tick (dt : Nat)
  | recv
  | pool_ready
  | pool_pending
  | pool_failed
  | discovery_update
  | discovery_closed
  | discovery_failed
  deriving DecidableEq, Repr

namespace Queue

/-- `PoolQueue::spawn` at `now`: an empty channel of `capacity`, and the worker in its loop. -/
def spawn (capacity timeout now : Nat) : Queue where
  now := now
  capacity := capacity
  failfast := .new timeout
  phase := .idle
  queue := []
  permits := 0
  senders := true
  closed := false
  terminal := false
  discovery_closed := false
  next := 0
  dropped := fun _ => false

/-- The answer sent on `msg`'s oneshot: delivered unless its caller dropped the receiver. -/
def answer (q : Queue) (msg : Nat) (a : Answer) : Out := .answered msg a (!q.dropped msg)

/-- `Gate::poll_ready` then `PoolQueue::poll_ready`: a shut gate waits; a closed channel fails
    with the recorded failure, which the `expect` needs; otherwise a slot is reserved if one is
    free. -/
def pollReady (q : Queue) : Queue × List Out :=
  if !q.senders then (q, [])
  else
    match q.failfast.gate with
    | .shut => (q, [])
    | .opened =>
      if q.closed then (q, if q.terminal then [.rejected] else [.panicked])
      else if q.queue.length + q.permits < q.capacity then
        ({ q with permits := q.permits + 1 }, [.reserved])
      else (q, [])

/-- `PoolQueue::call` with a reservation: the message goes into the channel (a reservation sends
    even after the channel closed). -/
def call (q : Queue) : Queue × List Out :=
  if q.senders && 0 < q.permits then
    ({ q with permits := q.permits - 1, queue := q.queue ++ [q.next], next := q.next + 1 },
      [.accepted q.next])
  else (q, [])

/-- `Failfast::set_ready` on the queue's failfast, showing the state it left. -/
def setReady (q : Queue) : Queue × List Out :=
  match q.failfast.setReady with
  | (f, some (.failfast _)) => ({ q with failfast := f }, [.left true])
  | (f, some (.waiting _)) => ({ q with failfast := f }, [.left false])
  | (f, none) => ({ q with failfast := f }, [])

/-- `Terminate::close`, first part: the failure recorded, then the channel closed. -/
def close (q : Queue) : Queue × List Out :=
  ({ q with terminal := true, closed := true, phase := .draining }, [.recorded, .closed])

/-- The worker receives: in its loop, a message (or, with every caller gone and the channel
    empty, it returns); in `close`, the next message to fail (or, with the channel empty and no
    reservation left, it is done). -/
def recv (q : Queue) : Queue × List Out :=
  match q.phase, q.queue with
  | .idle, msg :: rest => ({ q with queue := rest, phase := .readying msg }, [])
  | .idle, [] => if q.senders then (q, []) else ({ q with phase := .done }, [])
  | .draining, msg :: rest => ({ q with queue := rest }, [q.answer msg .terminal])
  | .draining, [] => if q.permits = 0 then ({ q with phase := .done }, []) else (q, [])
  | _, _ => (q, [])

/-- The pool polled ready: in the loop, `PoolDriver::drive` leaves the failfast state; in
    `ready_or_failfast`, `set_ready` clears the state and `call` answers the message. -/
def onPoolReady (q : Queue) : Queue × List Out :=
  match q.phase with
  | .idle => if q.failfast.isActive then q.setReady else (q, [])
  | .readying msg =>
    let r := q.setReady
    ({ r.1 with phase := .idle }, r.2 ++ [q.answer msg (callAnswer r.1.failfast)])
  | _ => (q, [])

/-- What a poll of `entered` shows, from the failfast `f` before to `f'` after: the wait armed,
    then the failfast state entered. -/
def enteredOuts (f f' : Failfast) : List Out :=
  (if f.state = none then [.armed] else []) ++
    (if !f.isActive && f'.isActive then [.entered] else [])

/-- The pool polled unready: in `ready_or_failfast`, `Failfast::entered` is polled; once it is
    ready, `call` answers the message. -/
def onPoolPending (q : Queue) : Queue × List Out :=
  match q.phase with
  | .readying msg =>
    let r := q.failfast.entered q.now
    if r.2 then
      ({ q with failfast := r.1, phase := .idle },
        enteredOuts q.failfast r.1 ++ [q.answer msg (callAnswer r.1)])
    else ({ q with failfast := r.1 }, enteredOuts q.failfast r.1)
  | _ => (q, [])

/-- The pool failed: in the loop, `drive` leaves the failfast state if in it and returns the
    error; in `ready_or_failfast`, `set_ready` then the error, which fails the message.  Either
    way the queue closes. -/
def onPoolFailed (q : Queue) : Queue × List Out :=
  match q.phase with
  | .idle =>
    let r := if q.failfast.isActive then q.setReady else (q, [])
    (r.1.close.1, r.2 ++ r.1.close.2)
  | .readying msg =>
    let r := q.setReady
    (r.1.close.1, r.2 ++ q.answer msg .terminal :: r.1.close.2)
  | _ => (q, [])

/-- Discovery failed (unless it already ended, after which `discover` never returns): the loop
    closes the queue; `ready_pool_for_request` fails its message first. -/
def onDiscoveryFailed (q : Queue) : Queue × List Out :=
  if q.discovery_closed then (q, [])
  else
    match q.phase with
    | .idle => q.close
    | .readying msg => (q.close.1, q.answer msg .terminal :: q.close.2)
    | _ => (q, [])

/-- Discovery ended: `Discovery::discover` never returns again. -/
def onDiscoveryClosed (q : Queue) : Queue × List Out :=
  match q.phase with
  | .idle | .readying _ => ({ q with discovery_closed := true }, [])
  | _ => (q, [])

/-- One input. -/
def step (q : Queue) : Event → Queue × List Out
  | .pollReady => q.pollReady
  | .call => q.call
  | .drop_response msg => ({ q with dropped := Function.update q.dropped msg true }, [])
  | .drop_callers => ({ q with senders := false, permits := 0 }, [])
  | .tick dt => ({ q with now := q.now + dt }, [])
  | .recv => q.recv
  | .pool_ready => q.onPoolReady
  | .pool_pending => q.onPoolPending
  | .pool_failed => q.onPoolFailed
  | .discovery_update => (q, [])
  | .discovery_closed => q.onDiscoveryClosed
  | .discovery_failed => q.onDiscoveryFailed

/-- The queue as a machine; every output carries the instant it happened at. -/
def machine : Machine Queue Event (Nat × Out) :=
  ⟨fun q e => ((q.step e).1, (q.step e).2.map fun o => (q.now, o))⟩

end Queue

/-! ### The failfast's invariant -/

namespace Failfast

/-- The failfast's invariant: the gate is shut exactly in the failfast state, and a waiting
    state's sleep runs out one timeout after the wait began. -/
structure Wf (f : Failfast) : Prop where
  gate_shut : f.gate = .shut ↔ f.isActive = true
  sleep : ∀ T, f.state = some (.waiting T) → f.sleep = T + f.timeout

theorem is_active_iff (f : Failfast) :
    f.isActive = true ↔ ∃ T, f.state = some (.failfast T) := by
  unfold isActive
  split <;> simp_all

theorem Wf.new (timeout : Nat) : (Failfast.new timeout).Wf :=
  ⟨by simp [Failfast.new, isActive], fun _ h => by cases h⟩

/-- Without the failfast state, the gate is open. -/
theorem Wf.gate_opened {f : Failfast} (hwf : f.Wf) (h : f.isActive = false) :
    f.gate = .opened := by
  cases hg : f.gate with
  | opened => rfl
  | shut => simp [hwf.gate_shut.1 hg] at h

@[simp] theorem set_ready_state (f : Failfast) : f.setReady.1.state = none := by
  unfold setReady
  split <;> simp_all

@[simp] theorem set_ready_timeout (f : Failfast) : f.setReady.1.timeout = f.timeout := by
  unfold setReady
  split <;> rfl

@[simp] theorem set_ready_is_active (f : Failfast) : f.setReady.1.isActive = false := by
  simp [isActive]

/-- `set_ready` leaves the gate open, whichever state it took. -/
theorem Wf.set_ready_gate {f : Failfast} (hwf : f.Wf) : f.setReady.1.gate = .opened := by
  unfold setReady
  split
  · rfl
  · next since h => exact hwf.gate_opened (by simp [isActive, h])
  · next h => exact hwf.gate_opened (by simp [isActive, h])

theorem Wf.setReady {f : Failfast} (hwf : f.Wf) : f.setReady.1.Wf :=
  ⟨by simp [hwf.set_ready_gate], fun _ h => by simp at h⟩

theorem wait_timeout (f : Failfast) (since now : Nat) :
    (f.wait since now).1.timeout = f.timeout := by
  unfold wait
  split <;> rfl

@[simp] theorem entered_timeout (f : Failfast) (now : Nat) :
    (f.entered now).1.timeout = f.timeout := by
  unfold entered
  split
  · rfl
  · exact wait_timeout ..
  · exact wait_timeout ..

/-- `entered` is ready exactly when it leaves the failfast state active. -/
theorem entered_ready (f : Failfast) (now : Nat) :
    (f.entered now).2 = (f.entered now).1.isActive := by
  unfold entered
  split
  · next T h => simp [isActive, h]
  · next T h =>
    unfold wait
    split <;> simp [isActive, h]
  · unfold wait
    split <;> simp [isActive]

/-- Before the failfast state, `entered` is polled on a sleep armed one timeout after the wait
    began: `wait` either enters the failfast state or keeps the waiting one. -/
theorem Wf.wait {f : Failfast} (hwf : f.Wf) (T now : Nat) : (f.wait T now).1.Wf := by
  unfold Failfast.wait
  split
  · exact ⟨by simp [isActive], fun _ h => by simp at h⟩
  · exact hwf

theorem Wf.entered {f : Failfast} (hwf : f.Wf) (now : Nat) : (f.entered now).1.Wf := by
  unfold Failfast.entered
  split
  · exact hwf
  · next T h => exact hwf.wait T now
  · next h =>
    apply Wf.wait
    refine ⟨?_, fun T hT => ?_⟩
    · simp only [isActive]
      exact ⟨fun hg => absurd hg (by simp [hwf.gate_opened (by simp [isActive, h])]),
        fun h' => by simp at h'⟩
    · simp only [Option.some.injEq, State.waiting.injEq] at hT
      simp [hT]

/-- Where a waiting state after `entered` comes from: the waiting state it found, or one it
    armed at `now`. -/
theorem entered_waiting (f : Failfast) (now T : Nat)
    (h : (f.entered now).1.state = some (.waiting T)) :
    f.state = some (.waiting T) ∨ (f.state = none ∧ T = now) := by
  unfold entered at h
  split at h
  · next h' => simp [h'] at h
  · next T' h' =>
    unfold wait at h
    split at h <;> simp_all
  · next h' =>
    unfold wait at h
    split at h <;> simp_all

/-- `entered` enters the failfast state only once the sleep armed when the wait began ran out:
    one timeout after the waiting state's instant, or, armed now, with a zero timeout. -/
theorem Wf.entered_active {f : Failfast} (hwf : f.Wf) (now : Nat)
    (hoff : f.isActive = false) (hon : (f.entered now).1.isActive = true) :
    ∃ T, (f.state = some (.waiting T) ∨ (f.state = none ∧ T = now)) ∧
      T + f.timeout ≤ now := by
  unfold Failfast.entered at hon
  split at hon
  · next T h => simp [isActive, h] at hoff
  · next T h =>
    have hle : f.sleep ≤ now := by
      unfold Failfast.wait at hon
      split at hon
      · assumption
      · simp [isActive, h] at hon
    exact ⟨T, Or.inl h, hwf.sleep T h ▸ hle⟩
  · next h =>
    have hle : now + f.timeout ≤ now := by
      unfold Failfast.wait at hon
      split at hon
      · assumption
      · simp [isActive] at hon
    exact ⟨now, Or.inr ⟨h, rfl⟩, hle⟩

end Failfast

/-! ### The queue's invariant -/

namespace Queue

theorem set_ready_fst (q : Queue) :
    q.setReady.1 = { q with failfast := q.failfast.setReady.1 } := by
  unfold setReady
  split <;> simp_all

/-- `set_ready` shows nothing but the state it left. -/
theorem mem_set_ready {q : Queue} {o : Out} (h : o ∈ q.setReady.2) : ∃ b, o = .left b := by
  unfold setReady at h
  split at h <;> simp_all

/-- The queue's invariant: the failfast's own; a waiting state only once the worker left its
    loop with a message; a closed channel only with its failure recorded and the worker in
    `close` or returned; and a returned worker with an empty channel that callers can no longer
    reserve in. -/
structure Wf (q : Queue) : Prop where
  failfast : q.failfast.Wf
  waiting_busy : ∀ T, q.failfast.state = some (.waiting T) → q.phase ≠ .idle
  closed_terminal : q.closed = true → q.terminal = true
  draining_closed : q.phase = .draining → q.closed = true
  closed_phase : q.closed = true → q.phase = .draining ∨ q.phase = .done
  done_empty : q.phase = .done → q.queue = []
  done_senders : q.phase = .done → q.senders = true → q.closed = true ∧ q.permits = 0

theorem Wf.spawn (capacity timeout now : Nat) : (spawn capacity timeout now).Wf where
  failfast := .new timeout
  waiting_busy _ h := by cases h
  closed_terminal h := by cases h
  draining_closed h := by cases h
  closed_phase h := by cases h
  done_empty h := by cases h
  done_senders h := by cases h

/-- A step that keeps the failfast, the worker's place and the channel's closing keeps the
    invariant, as long as a returned worker's channel stays empty and unreserved. -/
theorem Wf.frame {q q' : Queue} (hwf : q.Wf) (hf : q'.failfast = q.failfast)
    (hp : q'.phase = q.phase) (hc : q'.closed = q.closed) (ht : q'.terminal = q.terminal)
    (hdone : q.phase = .done →
      q'.queue = [] ∧ (q'.senders = true → q.senders = true ∧ q'.permits = 0)) :
    q'.Wf where
  failfast := hf ▸ hwf.failfast
  waiting_busy T h := hp ▸ hwf.waiting_busy T (hf ▸ h)
  closed_terminal h := ht ▸ hwf.closed_terminal (hc ▸ h)
  draining_closed h := hc ▸ hwf.draining_closed (hp ▸ h)
  closed_phase h := hp ▸ hwf.closed_phase (hc ▸ h)
  done_empty h := (hdone (hp ▸ h)).1
  done_senders h hs :=
    ⟨hc ▸ (hwf.done_senders (hp ▸ h) ((hdone (hp ▸ h)).2 hs).1).1,
      ((hdone (hp ▸ h)).2 hs).2⟩

/-- Before `close`, the channel is open. -/
theorem Wf.open_of_running {q : Queue} (hwf : q.Wf) (hd : q.phase ≠ .draining)
    (hn : q.phase ≠ .done) : q.closed = false := by
  cases hc : q.closed with
  | false => rfl
  | true => exact absurd (hwf.closed_phase hc) (by simp [hd, hn])

/-- A worker still in its loop, with an open channel, keeps the invariant as soon as its failfast
    does and a waiting state finds it past the loop. -/
theorem Wf.of_open {q : Queue} (hf : q.failfast.Wf)
    (hwait : ∀ T, q.failfast.state = some (.waiting T) → q.phase ≠ .idle)
    (hc : q.closed = false) (hd : q.phase ≠ .draining) (hn : q.phase ≠ .done) : q.Wf where
  failfast := hf
  waiting_busy := hwait
  closed_terminal h := by simp [hc] at h
  draining_closed h := absurd h hd
  closed_phase h := by simp [hc] at h
  done_empty h := absurd h hn
  done_senders h := absurd h hn

/-- `close` keeps the invariant, wherever it is called from. -/
theorem Wf.close {q : Queue} (hf : q.failfast.Wf) : q.close.1.Wf where
  failfast := hf
  waiting_busy _ _ h := by cases h
  closed_terminal _ := rfl
  draining_closed _ := rfl
  closed_phase _ := Or.inl rfl
  done_empty h := by cases h
  done_senders h := by cases h

theorem Wf.pollReady {q : Queue} (hwf : q.Wf) : q.pollReady.1.Wf := by
  unfold Queue.pollReady
  split
  · exact hwf
  · next hs =>
    split
    · exact hwf
    · split
      · exact hwf
      · next hc =>
        split
        · -- a reservation needs an open channel, so the worker has not returned
          have hnd : q.phase ≠ .done := fun hd => by
            simp [(hwf.done_senders hd (by simpa using hs)).1] at hc
          exact hwf.frame rfl rfl rfl rfl fun hd => absurd hd hnd
        · exact hwf

theorem Wf.call {q : Queue} (hwf : q.Wf) : q.call.1.Wf := by
  unfold Queue.call
  split
  · next h =>
    obtain ⟨hs, hp⟩ : q.senders = true ∧ 0 < q.permits := by simpa using h
    -- a returned worker left no reservation to send with
    exact hwf.frame rfl rfl rfl rfl fun hd => absurd (hwf.done_senders hd hs).2 (by omega)
  · exact hwf

theorem Wf.recv {q : Queue} (hwf : q.Wf) : q.recv.1.Wf := by
  unfold Queue.recv
  split
  · next msg rest hp _ =>
    exact Wf.of_open hwf.failfast (fun _ _ => by simp) (hwf.open_of_running (by simp [hp])
      (by simp [hp])) (by simp) (by simp)
  · next hp hq =>
    split
    · exact hwf
    · next hs =>
      -- every caller gone: the worker returns with an empty channel
      exact ⟨hwf.failfast, fun _ _ => by simp, hwf.closed_terminal, fun h => by simp at h,
        fun _ => Or.inr rfl, fun _ => hq, fun _ h => absurd h hs⟩
  · next hp _ =>
    exact hwf.frame rfl rfl rfl rfl fun hd => absurd (hd.symm.trans hp) (by simp)
  · next hp hq =>
    split
    · next hperm =>
      -- `close` drained the channel and no reservation is left: the worker returns
      refine ⟨hwf.failfast, fun _ _ => by simp, hwf.closed_terminal, fun h => by simp at h,
        fun _ => Or.inr rfl, fun _ => hq, fun _ _ => ?_⟩
      exact ⟨hwf.draining_closed hp, hperm⟩
    · exact hwf
  · exact hwf

/-- A step that leaves the channel and its callers alone keeps a returned worker's clauses. -/
theorem Wf.done_same {q q' : Queue} (hwf : q.Wf) (hq : q'.queue = q.queue)
    (hs : q'.senders = q.senders) (hp : q'.permits = q.permits) :
    q.phase = .done →
      q'.queue = [] ∧ (q'.senders = true → q.senders = true ∧ q'.permits = 0) := fun hd =>
  ⟨hq ▸ hwf.done_empty hd, fun h => ⟨hs ▸ h, hp ▸ (hwf.done_senders hd (hs ▸ h)).2⟩⟩

theorem Wf.setReady {q : Queue} (hwf : q.Wf) : q.setReady.1.Wf := by
  rw [set_ready_fst]
  exact ⟨hwf.failfast.setReady, fun _ h => by simp at h, hwf.closed_terminal,
    hwf.draining_closed, hwf.closed_phase, hwf.done_empty, hwf.done_senders⟩

theorem Wf.onPoolReady {q : Queue} (hwf : q.Wf) : q.onPoolReady.1.Wf := by
  unfold Queue.onPoolReady
  split
  · split
    · exact hwf.setReady
    · exact hwf
  · next msg hp =>
    -- the message dispatched, the worker is back in its loop with the state cleared
    dsimp only
    rw [set_ready_fst]
    exact Wf.of_open hwf.failfast.setReady (fun _ h => by simp at h)
      (hwf.open_of_running (by simp [hp]) (by simp [hp])) (by simp) (by simp)
  · exact hwf

theorem Wf.onPoolPending {q : Queue} (hwf : q.Wf) : q.onPoolPending.1.Wf := by
  unfold Queue.onPoolPending
  split
  · next msg hp =>
    have hf := hwf.failfast.entered q.now
    have hc := hwf.open_of_running (by simp [hp]) (by simp [hp])
    dsimp only
    by_cases hready : (q.failfast.entered q.now).2 = true
    · -- `entered` is ready only in the failfast state, so the loop never sees a waiting one
      rw [if_pos hready]
      refine Wf.of_open hf (fun T hT => ?_) hc (by simp) (by simp)
      have hT' : (q.failfast.entered q.now).1.state = some (.waiting T) := hT
      have hactive := (q.failfast.entered_ready q.now).symm.trans hready
      simp [Failfast.isActive, hT'] at hactive
    · rw [if_neg hready]
      exact Wf.of_open hf (fun _ _ => by simp [hp]) hc (by simp [hp]) (by simp [hp])
  · exact hwf

theorem Wf.onPoolFailed {q : Queue} (hwf : q.Wf) : q.onPoolFailed.1.Wf := by
  unfold Queue.onPoolFailed
  split
  · split
    · exact Wf.close hwf.setReady.failfast
    · exact Wf.close hwf.failfast
  · exact Wf.close hwf.setReady.failfast
  · exact hwf

theorem Wf.onDiscoveryFailed {q : Queue} (hwf : q.Wf) : q.onDiscoveryFailed.1.Wf := by
  unfold Queue.onDiscoveryFailed
  split
  · exact hwf
  · split
    · exact Wf.close hwf.failfast
    · exact Wf.close hwf.failfast
    · exact hwf

theorem Wf.onDiscoveryClosed {q : Queue} (hwf : q.Wf) : q.onDiscoveryClosed.1.Wf := by
  unfold Queue.onDiscoveryClosed
  split
  · exact hwf.frame rfl rfl rfl rfl (hwf.done_same rfl rfl rfl)
  · exact hwf.frame rfl rfl rfl rfl (hwf.done_same rfl rfl rfl)
  · exact hwf

/-- Every input keeps the invariant. -/
theorem Wf.step {q : Queue} (hwf : q.Wf) (e : Event) : (q.step e).1.Wf := by
  cases e with
  | pollReady => exact hwf.pollReady
  | call => exact hwf.call
  | drop_response msg => exact hwf.frame rfl rfl rfl rfl (hwf.done_same rfl rfl rfl)
  | drop_callers =>
    exact hwf.frame rfl rfl rfl rfl fun hd =>
      ⟨hwf.done_empty hd, fun h => absurd h (by simp [Queue.step])⟩
  | tick dt => exact hwf.frame rfl rfl rfl rfl (hwf.done_same rfl rfl rfl)
  | recv => exact hwf.recv
  | pool_ready => exact hwf.onPoolReady
  | pool_pending => exact hwf.onPoolPending
  | pool_failed => exact hwf.onPoolFailed
  | discovery_update => exact hwf
  | discovery_closed => exact hwf.onDiscoveryClosed
  | discovery_failed => exact hwf.onDiscoveryFailed

end Queue

/-! ### The ledger of messages -/

/-- `o` answers `msg`. -/
def Out.answers (msg : Nat) : Out → Bool
  | .answered m _ _ => m == msg
  | _ => false

namespace Queue

/-- How many times the queue holds `msg`: in the channel, or in the worker's hands. -/
def held (q : Queue) (msg : Nat) : Nat :=
  q.queue.count msg + if q.phase = .readying msg then 1 else 0

/-- One step's ledger for `msg`: what it answered plus what is still held is what it accepted
    plus what was held before. -/
def Balanced (msg : Nat) (q : Queue) (r : Queue × List Out) : Prop :=
  r.2.countP (·.answers msg) + r.1.held msg = r.2.count (.accepted msg) + q.held msg

/-- A step that shows neither an answer nor an acceptance and keeps the channel and the worker's
    place is balanced. -/
theorem balanced_frame {msg : Nat} {q : Queue} {r : Queue × List Out}
    (hq : r.1.queue = q.queue) (hp : r.1.phase = q.phase)
    (hout : ∀ o ∈ r.2, o.answers msg = false ∧ o ≠ .accepted msg) : Balanced msg q r := by
  have ha : r.2.countP (·.answers msg) = 0 := List.countP_eq_zero.2 fun o ho => by
    simp [(hout o ho).1]
  have hc : r.2.count (.accepted msg) = 0 := List.count_eq_zero.2 fun ho => (hout _ ho).2 rfl
  simp only [Balanced, held, ha, hc, hq, hp]

@[simp] theorem answer_answers (q : Queue) (m msg : Nat) (a : Answer) :
    (q.answer m a).answers msg = (m == msg) := rfl

@[simp] theorem answer_ne_accepted (q : Queue) (m msg : Nat) (a : Answer) :
    q.answer m a ≠ .accepted msg := by
  simp [answer]

@[simp] theorem close_answers (msg : Nat) (q : Queue) :
    q.close.2.countP (·.answers msg) = 0 := by
  simp [close, Out.answers]

@[simp] theorem close_accepted (msg : Nat) (q : Queue) : q.close.2.count (.accepted msg) = 0 := by
  simp [close]

@[simp] theorem set_ready_queue (q : Queue) : q.setReady.1.queue = q.queue := by
  rw [set_ready_fst]

@[simp] theorem set_ready_phase (q : Queue) : q.setReady.1.phase = q.phase := by
  rw [set_ready_fst]

@[simp] theorem set_ready_answers (msg : Nat) (q : Queue) :
    q.setReady.2.countP (·.answers msg) = 0 := by
  unfold setReady
  split <;> simp [Out.answers]

@[simp] theorem set_ready_accepted (msg : Nat) (q : Queue) :
    q.setReady.2.count (.accepted msg) = 0 := by
  unfold setReady
  split <;> simp

@[simp] theorem set_ready_held (msg : Nat) (q : Queue) : q.setReady.1.held msg = q.held msg := by
  rw [set_ready_fst]
  rfl

@[simp] theorem close_queue (q : Queue) : q.close.1.queue = q.queue := rfl

@[simp] theorem close_phase (q : Queue) : q.close.1.phase = .draining := rfl

@[simp] theorem entered_outs_answers (msg : Nat) (f f' : Failfast) :
    (enteredOuts f f').countP (·.answers msg) = 0 := by
  unfold enteredOuts
  split <;> split <;> simp [Out.answers]

@[simp] theorem entered_outs_accepted (msg : Nat) (f f' : Failfast) :
    (enteredOuts f f').count (.accepted msg) = 0 := by
  unfold enteredOuts
  split <;> split <;> simp

theorem balanced_poll_ready (msg : Nat) (q : Queue) : Balanced msg q q.pollReady := by
  unfold pollReady
  split
  · exact balanced_frame rfl rfl (by simp)
  · split
    · exact balanced_frame rfl rfl (by simp)
    · split
      · exact balanced_frame rfl rfl (by split <;> simp [Out.answers])
      · split <;> exact balanced_frame rfl rfl (by simp [Out.answers])

theorem balanced_call (msg : Nat) (q : Queue) : Balanced msg q q.call := by
  unfold call
  split
  · -- the new message enters the channel as it is accepted
    by_cases hm : q.next = msg
    · simp [Balanced, held, hm, Out.answers]
      omega
    · simp [Balanced, held, hm, Out.answers]
  · exact balanced_frame rfl rfl (by simp)

theorem balanced_recv (msg : Nat) (q : Queue) : Balanced msg q q.recv := by
  unfold Balanced recv
  split
  · -- the message moves from the channel into the worker's hands
    next m rest hp hq =>
    by_cases hm : m = msg <;> simp [held, hp, hq, hm]
  · next hp _ => split <;> simp [held, hp]
  · -- `close` fails the head of the channel
    next m rest hp hq =>
    by_cases hm : m = msg <;> simp [held, hp, hq, hm, Nat.add_comm]
  · next hp _ => split <;> simp [held, hp]
  · simp

theorem balanced_on_pool_ready (msg : Nat) (q : Queue) : Balanced msg q q.onPoolReady := by
  unfold onPoolReady
  split
  · split
    · simp [Balanced]
    · simp [Balanced]
  · -- the message leaves the worker's hands with its answer
    next m hp =>
    dsimp only
    rw [set_ready_fst]
    by_cases hm : m = msg <;> simp [Balanced, held, hp, hm, Nat.add_comm]
  · simp [Balanced]

theorem balanced_on_pool_pending (msg : Nat) (q : Queue) :
    Balanced msg q q.onPoolPending := by
  unfold onPoolPending
  split
  · next m hp =>
    dsimp only
    split
    · by_cases hm : m = msg <;> simp [Balanced, held, hp, hm, Nat.add_comm]
    · simp [Balanced, held, hp]
  · simp [Balanced]

theorem balanced_on_pool_failed (msg : Nat) (q : Queue) : Balanced msg q q.onPoolFailed := by
  unfold onPoolFailed
  split
  · next hp =>
    dsimp only
    split
    · simp [Balanced, held, hp]
    · simp [Balanced, held, hp]
  · next m hp =>
    dsimp only
    by_cases hm : m = msg <;> simp [Balanced, held, hp, hm, Nat.add_comm]
  · simp [Balanced]

theorem balanced_on_discovery_failed (msg : Nat) (q : Queue) :
    Balanced msg q q.onDiscoveryFailed := by
  unfold onDiscoveryFailed
  split
  · simp [Balanced]
  · split
    · next hp => simp [Balanced, held, hp]
    · next m hp =>
      by_cases hm : m = msg <;> simp [Balanced, held, hp, hm, Nat.add_comm]
    · simp [Balanced]

theorem balanced_on_discovery_closed (msg : Nat) (q : Queue) :
    Balanced msg q q.onDiscoveryClosed := by
  unfold onDiscoveryClosed
  split <;> simp [Balanced, held]

/-- Every step is balanced: a message leaves the queue's hands only with an answer, and enters
    them only as it is accepted. -/
theorem balanced_step (msg : Nat) (q : Queue) (e : Event) : Balanced msg q (q.step e) := by
  cases e with
  | pollReady => exact balanced_poll_ready msg q
  | call => exact balanced_call msg q
  | drop_response m => exact balanced_frame rfl rfl (by simp [Queue.step])
  | drop_callers => exact balanced_frame rfl rfl (by simp [Queue.step])
  | tick dt => exact balanced_frame rfl rfl (by simp [Queue.step])
  | recv => exact balanced_recv msg q
  | pool_ready => exact balanced_on_pool_ready msg q
  | pool_pending => exact balanced_on_pool_pending msg q
  | pool_failed => exact balanced_on_pool_failed msg q
  | discovery_update => simp [step, Balanced]
  | discovery_closed => exact balanced_on_discovery_closed msg q
  | discovery_failed => exact balanced_on_discovery_failed msg q

end Queue

/-! ### What each input can show -/

/-- The outputs each input can show: a caller's reservation or failure, an acceptance, the
    terminal failure of a drained message, a dispatch (only when the pool was polled ready), a
    `FailFastError` (only when `entered` was), the failfast state armed, entered or left, and the
    failure recorded and the channel closed. -/
def Event.shows : Event → Out → Bool
  | .pollReady, .reserved | .pollReady, .rejected | .pollReady, .panicked => true
  | .call, .accepted _ => true
  | .recv, .answered _ .terminal _ => true
  | .pool_ready, .left _ | .pool_ready, .answered _ .future _ => true
  | .pool_pending, .armed | .pool_pending, .entered | .pool_pending, .answered _ .failfast _ => true
  | .pool_failed, .left _ | .pool_failed, .answered _ .terminal _ | .pool_failed, .recorded
  | .pool_failed, .closed => true
  | .discovery_failed, .answered _ .terminal _ | .discovery_failed, .recorded
  | .discovery_failed, .closed => true
  | _, _ => false

namespace Queue

@[simp] theorem call_answer_set_ready (f : Failfast) : callAnswer f.setReady.1 = .future := by
  simp [callAnswer]

@[simp] theorem set_ready_failfast (q : Queue) :
    q.setReady.1.failfast = q.failfast.setReady.1 := by
  rw [set_ready_fst]

/-- `entered` is ready only in the failfast state, where `call` fails fast. -/
theorem call_answer_entered {f : Failfast} {now : Nat} (h : (f.entered now).2 = true) :
    callAnswer (f.entered now).1 = .failfast := by
  simp [callAnswer, ← f.entered_ready now, h]

theorem shows_set_ready {q : Queue} {e : Event} (he : ∀ b, e.shows (.left b) = true) {o : Out}
    (ho : o ∈ q.setReady.2) : e.shows o = true := by
  obtain ⟨b, rfl⟩ := mem_set_ready ho
  exact he b

theorem shows_entered_outs {f f' : Failfast} {o : Out} (ho : o ∈ enteredOuts f f') :
    Event.pool_pending.shows o = true := by
  unfold enteredOuts at ho
  split at ho <;> split at ho <;> simp at ho <;> rcases ho with rfl | rfl <;> rfl

/-- Every output of a step is one its input can show. -/
theorem step_shows (q : Queue) (e : Event) : ∀ o ∈ (q.step e).2, e.shows o = true := by
  intro o ho
  cases e with
  | pollReady =>
    simp only [step] at ho
    unfold pollReady at ho
    repeat' split at ho
    all_goals simp_all [Event.shows]
  | call =>
    simp only [step] at ho
    unfold call at ho
    split at ho <;> simp_all [Event.shows]
  | recv =>
    simp only [step] at ho
    unfold recv at ho
    repeat' split at ho
    all_goals simp_all [Event.shows, answer]
  | pool_ready =>
    simp only [step] at ho
    unfold onPoolReady at ho
    split at ho
    · split at ho
      · exact shows_set_ready (fun _ => rfl) ho
      · simp at ho
    · rcases List.mem_append.1 ho with ho | ho
      · exact shows_set_ready (fun _ => rfl) ho
      · simp_all [Event.shows, answer]
    · simp at ho
  | pool_pending =>
    simp only [step] at ho
    unfold onPoolPending at ho
    split at ho
    · dsimp only at ho
      split at ho
      · next hready =>
        rcases List.mem_append.1 ho with ho | ho
        · exact shows_entered_outs ho
        · simp_all [Event.shows, answer, call_answer_entered hready]
      · exact shows_entered_outs ho
    · simp at ho
  | pool_failed =>
    simp only [step] at ho
    unfold onPoolFailed at ho
    split at ho
    · dsimp only at ho
      split at ho
      · rcases List.mem_append.1 ho with ho | ho
        · exact shows_set_ready (fun _ => rfl) ho
        · simp [close] at ho
          rcases ho with rfl | rfl <;> rfl
      · simp [close] at ho
        rcases ho with rfl | rfl <;> rfl
    · dsimp only at ho
      rcases List.mem_append.1 ho with ho | ho
      · exact shows_set_ready (fun _ => rfl) ho
      · simp only [close, answer, List.mem_cons, List.not_mem_nil, or_false] at ho
        rcases ho with rfl | rfl | rfl <;> rfl
    · simp at ho
  | discovery_failed =>
    simp only [step] at ho
    unfold onDiscoveryFailed at ho
    split at ho
    · simp at ho
    · split at ho
      · simp [close] at ho
        rcases ho with rfl | rfl <;> rfl
      · simp only [close, answer, List.mem_cons, List.not_mem_nil, or_false] at ho
        rcases ho with rfl | rfl | rfl <;> rfl
      · simp at ho
  | drop_response m => simp [step] at ho
  | drop_callers => simp [step] at ho
  | tick dt => simp [step] at ho
  | discovery_update => simp [step] at ho
  | discovery_closed =>
    simp only [step] at ho
    unfold onDiscoveryClosed at ho
    split at ho <;> simp at ho

/-! ### Frame facts of a step -/

@[simp] theorem set_ready_next (q : Queue) : q.setReady.1.next = q.next := by
  rw [set_ready_fst]

@[simp] theorem set_ready_closed (q : Queue) : q.setReady.1.closed = q.closed := by
  rw [set_ready_fst]

/-- Only a caller's `call` takes a new id. -/
theorem step_next {q : Queue} {e : Event} (he : e ≠ .call) : (q.step e).1.next = q.next := by
  cases e <;> simp only [step, pollReady, recv, onPoolReady, onPoolPending, onPoolFailed,
    onDiscoveryFailed, onDiscoveryClosed] <;> (repeat' split) <;> simp_all [close]

/-- The failfast timeout is fixed. -/
theorem step_timeout (q : Queue) (e : Event) :
    (q.step e).1.failfast.timeout = q.failfast.timeout := by
  cases e <;> simp only [step, pollReady, call, recv, onPoolReady, onPoolPending,
    onPoolFailed, onDiscoveryFailed, onDiscoveryClosed] <;> (repeat' split) <;> simp [close]

/-- A closed channel stays closed. -/
theorem step_closed_mono {q : Queue} (hc : q.closed = true) (e : Event) :
    (q.step e).1.closed = true := by
  cases e <;> simp only [step, pollReady, call, recv, onPoolReady, onPoolPending,
    onPoolFailed, onDiscoveryFailed, onDiscoveryClosed] <;> (repeat' split) <;>
    simp [close, hc]

/-- Only the pool's polls move the failfast. -/
theorem step_failfast {q : Queue} {e : Event}
    (he : e ≠ .pool_ready ∧ e ≠ .pool_pending ∧ e ≠ .pool_failed) :
    (q.step e).1.failfast = q.failfast := by
  cases e <;> simp only [step, pollReady, call, recv, onDiscoveryFailed,
    onDiscoveryClosed] <;> (repeat' split) <;> simp_all [close]

/-- The channel is closed only by `close`, whose two outputs end the step. -/
theorem step_closing {q : Queue} {e : Event} (h : Out.closed ∈ (q.step e).2) :
    (q.step e).1.closed = true ∧
      ∃ L, (q.step e).2 = L ++ [.recorded, .closed] ∧ Out.closed ∉ L := by
  have hshow := step_shows q e _ h
  have hleft : Out.closed ∉ q.setReady.2 := fun hc => by
    obtain ⟨b, hb⟩ := mem_set_ready hc
    cases hb
  cases e
  case pool_failed =>
    simp only [step] at h ⊢
    unfold onPoolFailed at h ⊢
    split
    · dsimp only
      split
      · exact ⟨rfl, q.setReady.2, rfl, hleft⟩
      · exact ⟨rfl, [], rfl, by simp⟩
    · next m _ =>
      refine ⟨rfl, q.setReady.2 ++ [q.answer m .terminal], by simp [close], ?_⟩
      simp [hleft, answer]
    · simp at h
  case discovery_failed =>
    simp only [step] at h ⊢
    unfold onDiscoveryFailed at h ⊢
    split
    · next hd => simp [hd] at h
    · split
      · exact ⟨rfl, [], rfl, by simp⟩
      · exact ⟨rfl, [q.answer _ .terminal], rfl, by simp [answer]⟩
      · simp at h
  all_goals simp [Event.shows] at hshow

/-- Once the channel is closed, the worker answers only with the terminal failure: it is in
    `close` or returned, and no longer polls the pool. -/
theorem step_answer_of_closed {q : Queue} (hwf : q.Wf) (hc : q.closed = true) {e : Event}
    {m : Nat} {a : Answer} {d : Bool} (h : Out.answered m a d ∈ (q.step e).2) :
    a = .terminal := by
  have hshow := step_shows q e _ h
  have hp := hwf.closed_phase hc
  cases e
  case pool_ready =>
    simp only [step] at h
    unfold onPoolReady at h
    rcases hp with hp | hp <;> simp [hp] at h
  case pool_pending =>
    simp only [step] at h
    unfold onPoolPending at h
    rcases hp with hp | hp <;> simp [hp] at h
  all_goals cases a <;> first | rfl | simp [Event.shows] at hshow

/-- A waiting state after a step is the one before, kept by a step that does not leave it, or
    one armed now by a step that shows only that. -/
theorem step_waiting {q : Queue} {e : Event} {T : Nat}
    (h : (q.step e).1.failfast.state = some (.waiting T)) :
    (q.failfast.state = some (.waiting T) ∧ ∀ b, Out.left b ∉ (q.step e).2) ∨
      (q.failfast.state = none ∧ T = q.now ∧ (q.step e).2 = [.armed]) := by
  -- a step that does not poll the pool keeps the failfast and shows no `left`
  have hframe (he : e ≠ .pool_ready ∧ e ≠ .pool_pending ∧ e ≠ .pool_failed) :
      q.failfast.state = some (.waiting T) ∧ ∀ b, Out.left b ∉ (q.step e).2 :=
    ⟨step_failfast he ▸ h, fun b hb => by
      have hshow := step_shows q e _ hb
      cases e <;> simp_all [Event.shows]⟩
  have hnone : ¬ q.failfast.setReady.1.state = some (.waiting T) := by simp
  cases e
  case pool_ready =>
    simp only [step] at h ⊢
    unfold onPoolReady at h ⊢
    split
    · next hp =>
      simp only [hp] at h
      split
      · next ha => simp [ha] at h
      · next ha => simp_all
    · next hp => simp [hp] at h
    · next hp => simp_all
  case pool_failed =>
    simp only [step] at h ⊢
    unfold onPoolFailed at h ⊢
    split
    · next hp =>
      simp only [hp] at h
      dsimp only at h ⊢
      split
      · next ha => simp [ha, close] at h
      · next ha =>
        simp only [ha] at h
        exact Or.inl ⟨h, fun b hb => by simp [close] at hb⟩
    · next hp => simp [hp, close] at h
    · next hp => simp_all
  case pool_pending =>
    simp only [step] at h ⊢
    unfold onPoolPending at h ⊢
    split
    · next m hp =>
      simp only [hp] at h
      dsimp only at h ⊢
      by_cases hready : (q.failfast.entered q.now).2 = true
      · -- a ready `entered` leaves the failfast state, not a waiting one
        simp only [hready, if_true] at h
        have hactive := (q.failfast.entered_ready q.now).symm.trans hready
        simp [Failfast.isActive, h] at hactive
      · simp only [hready] at h ⊢
        have hquiet : (q.failfast.entered q.now).1.isActive = false := by
          simpa [q.failfast.entered_ready q.now] using hready
        rcases Failfast.entered_waiting _ _ _ h with hw | ⟨hn, rfl⟩
        · exact Or.inl ⟨hw, by simp [enteredOuts, hw, hquiet]⟩
        · exact Or.inr ⟨hn, rfl, by simp [enteredOuts, hn, hquiet]⟩
    · next hp => simp_all
  all_goals exact Or.inl (hframe (by simp))

theorem mem_entered_outs_entered {f f' : Failfast} (h : Out.entered ∈ enteredOuts f f') :
    f.isActive = false ∧ f'.isActive = true := by
  unfold enteredOuts at h
  split at h <;> split at h <;> simp_all

/-- The failfast state is entered only by a poll of `entered` on an unready pool once the sleep
    armed when the wait began has run out; the step shows the wait armed (if armed now), the
    state entered, and the message's `FailFastError`. -/
theorem step_entered {q : Queue} (hwf : q.Wf) {e : Event} (h : Out.entered ∈ (q.step e).2) :
    ∃ T m, (q.step e).2 =
        (if q.failfast.state = none then [Out.armed] else []) ++
          [Out.entered, q.answer m .failfast] ∧
      (q.failfast.state = some (.waiting T) ∨ (q.failfast.state = none ∧ T = q.now)) ∧
      T + q.failfast.timeout ≤ q.now := by
  have hshow := step_shows q e _ h
  cases e
  case pool_pending =>
    simp only [step] at h ⊢
    unfold onPoolPending at h ⊢
    split
    · next m hp =>
      simp only [hp] at h
      dsimp only at h ⊢
      by_cases hready : (q.failfast.entered q.now).2 = true
      · simp only [hready, if_true] at h ⊢
        have hin : Out.entered ∈ enteredOuts q.failfast (q.failfast.entered q.now).1 := by
          simpa [answer] using h
        obtain ⟨hoff, hon⟩ := mem_entered_outs_entered hin
        obtain ⟨T, horigin, hle⟩ := hwf.failfast.entered_active q.now hoff hon
        refine ⟨T, m, ?_, horigin, hle⟩
        simp [enteredOuts, hoff, hon, call_answer_entered hready]
      · simp only [hready] at h
        have hquiet : (q.failfast.entered q.now).1.isActive = false := by
          simpa [q.failfast.entered_ready q.now] using hready
        exact absurd (mem_entered_outs_entered h).2 (by simp [hquiet])
    · simp at h
  all_goals simp [Event.shows] at hshow

/-- A call accepts the next id and moves past it, or does nothing. -/
theorem call_accepts (q : Queue) :
    (q.call.1.next = q.next + 1 ∧ q.call.2 = [.accepted q.next]) ∨
      (q.call.1.next = q.next ∧ q.call.2 = []) := by
  unfold call
  split <;> simp

/-- A caller's `poll_ready` panics only on a closed channel without a recorded failure, which
    the invariant rules out. -/
theorem step_no_panic {q : Queue} (hwf : q.Wf) (e : Event) : Out.panicked ∉ (q.step e).2 := by
  intro h
  have hshow := step_shows q e _ h
  cases e
  case pollReady =>
    simp only [step] at h
    unfold pollReady at h
    repeat' split at h
    all_goals simp_all [hwf.closed_terminal]
  all_goals simp [Event.shows] at hshow

theorem Failfast.entered_of_active {f : Failfast} (h : f.isActive = true) (now : Nat) :
    f.entered now = (f, true) := by
  obtain ⟨T, hT⟩ := (Failfast.is_active_iff f).1 h
  simp [Failfast.entered, hT]

/-- A message is dispatched to the pool right after the pool was polled ready, which leaves no
    failfast state behind. -/
theorem dispatch_when_ready {q : Queue} {m : Nat} (hp : q.phase = .readying m) :
    (q.step .pool_ready).2 = q.setReady.2 ++ [q.answer m .future] ∧
      (q.step .pool_ready).1.failfast.state = none := by
  simp [step, onPoolReady, hp]

/-- In the failfast state, a dequeued message polled on an unready pool is failed fast. -/
theorem failfast_fails {q : Queue} {m : Nat} (hp : q.phase = .readying m)
    (ha : q.failfast.isActive = true) :
    (q.step .pool_pending).2 = [q.answer m .failfast] := by
  obtain ⟨T, hT⟩ := (Failfast.is_active_iff _).1 ha
  simp [step, onPoolPending, hp, Failfast.entered_of_active ha, enteredOuts, hT, callAnswer, ha]

/-- The failfast state is left only when the pool is polled ready or failed. -/
theorem step_leaves_failfast {q : Queue} {e : Event} (hon : q.failfast.isActive = true)
    (hoff : (q.step e).1.failfast.isActive = false) : e = .pool_ready ∨ e = .pool_failed := by
  cases e
  case pool_ready => exact Or.inl rfl
  case pool_failed => exact Or.inr rfl
  case pool_pending =>
    -- `entered` in the failfast state is ready at once and changes nothing
    simp only [step] at hoff
    unfold onPoolPending at hoff
    split at hoff
    · simp [Failfast.entered_of_active hon, hon] at hoff
    · simp [hon] at hoff
  all_goals rw [step_failfast (by simp), hon] at hoff; cases hoff

/-- Once the worker is in `close` or has returned, nothing moves its failfast again, and it stays
    there. -/
theorem step_of_closing {q : Queue} (hp : q.phase = .draining ∨ q.phase = .done) (e : Event) :
    (q.step e).1.failfast = q.failfast ∧
      ((q.step e).1.phase = .draining ∨ (q.step e).1.phase = .done) := by
  rcases hp with hp | hp <;>
    cases e <;> simp only [step, pollReady, call, recv, onPoolReady, onPoolPending,
      onPoolFailed, onDiscoveryFailed, onDiscoveryClosed, hp] <;> (repeat' split) <;>
    simp_all

end Queue

/-! ### The laws of a run -/

/-- How many times `msg` was accepted in a trace. -/
def acceptances (msg : Nat) (os : List (Nat × Out)) : Nat :=
  os.countP fun x => x.2 = .accepted msg

/-- How many times `msg` was answered in a trace. -/
def answers (msg : Nat) (os : List (Nat × Out)) : Nat :=
  os.countP fun x => x.2.answers msg

/-- The failure is recorded before the channel closes. -/
def RecordedFirst (pre : List (Nat × Out)) (x : Nat × Out) : Prop :=
  x.2 = .closed → ∃ t, (t, Out.recorded) ∈ pre

/-- No answer after the channel closed is anything but the terminal failure. -/
def TerminalAfterClose (x y : Nat × Out) : Prop :=
  x.2 = .closed → ∀ m a d, y.2 = .answered m a d → a = .terminal

/-- A wait armed at `T` that nothing has left since: the trace has `(T, armed)` followed only by
    outputs other than `left`. -/
def ArmedQuiet (T : Nat) (os : List (Nat × Out)) : Prop :=
  ∃ pre mid, os = pre ++ (T, Out.armed) :: mid ∧ ∀ x ∈ mid, ∀ b, x.2 ≠ .left b

/-- The failfast state is entered only once the pool stayed unready for the whole timeout: from
    a wait armed at `T`, not left since, with `T + timeout` reached. -/
def EnteredAfterTimeout (timeout : Nat) (pre : List (Nat × Out)) (x : Nat × Out) : Prop :=
  x.2 = .entered → ∃ T, ArmedQuiet T pre ∧ T + timeout ≤ x.1

theorem answers_stamp (msg n : Nat) (os : List (Nat × Out)) (out : List Out) :
    answers msg (os ++ out.map fun o => (n, o)) = answers msg os + out.countP (·.answers msg) := by
  simp [answers, List.countP_append, List.countP_map, Function.comp_def]

theorem acceptances_stamp (msg n : Nat) (os : List (Nat × Out)) (out : List Out) :
    acceptances msg (os ++ out.map fun o => (n, o)) =
      acceptances msg os + out.count (.accepted msg) := by
  simp only [acceptances, List.countP_append, List.countP_map, Function.comp_def, List.count]
  rfl

theorem ArmedQuiet.append {T : Nat} {os : List (Nat × Out)} (h : ArmedQuiet T os)
    {ys : List (Nat × Out)} (hys : ∀ x ∈ ys, ∀ b, x.2 ≠ .left b) :
    ArmedQuiet T (os ++ ys) := by
  obtain ⟨pre, mid, rfl, hmid⟩ := h
  refine ⟨pre, mid ++ ys, by simp, fun x hx => ?_⟩
  rcases List.mem_append.1 hx with hx | hx
  · exact hmid x hx
  · exact hys x hx

theorem ArmedQuiet.armed (T : Nat) (os : List (Nat × Out)) : ArmedQuiet T (os ++ [(T, .armed)]) :=
  ⟨os, [], rfl, by simp⟩

/-- The queue's trace invariant, over the outputs `os` of a run that ended in `q`: the state's
    invariant; the timeout it was spawned with; the ledger (what was answered plus what is held
    is what was accepted) and fresh ids; the armed wait of a waiting state; a `closed` output
    only with the channel closed; and the laws of the trace. -/
structure QueueTrace (timeout : Nat) (os : List (Nat × Out)) (q : Queue) : Prop where
  wf : q.Wf
  timeout_eq : q.failfast.timeout = timeout
  ledger : ∀ msg, answers msg os + q.held msg = acceptances msg os
  accepted_once : ∀ msg, acceptances msg os = if msg < q.next then 1 else 0
  armed : ∀ T, q.failfast.state = some (.waiting T) → ArmedQuiet T os
  closed_seen : ∀ t, (t, Out.closed) ∈ os → q.closed = true
  no_panic : ∀ x ∈ os, x.2 ≠ .panicked
  recorded_first : Machine.TraceLaw RecordedFirst os
  terminal_after_close : os.Pairwise TerminalAfterClose
  entered_after_timeout : Machine.TraceLaw (EnteredAfterTimeout timeout) os

theorem QueueTrace.spawn (capacity timeout now : Nat) :
    QueueTrace timeout [] (Queue.spawn capacity timeout now) where
  wf := Queue.Wf.spawn capacity timeout now
  timeout_eq := rfl
  ledger msg := by simp [answers, acceptances, Queue.held, Queue.spawn]
  accepted_once msg := by simp [acceptances, Queue.spawn]
  armed _ h := by cases h
  closed_seen _ h := by cases h
  no_panic _ h := by cases h
  recorded_first := Machine.trace_law_nil _
  terminal_after_close := List.Pairwise.nil
  entered_after_timeout := Machine.trace_law_nil _

section Step

variable {timeout : Nat} {os : List (Nat × Out)} {q : Queue}

theorem QueueTrace.ledger_step (h : QueueTrace timeout os q) (e : Event) (msg : Nat) :
    answers msg (os ++ (q.step e).2.map fun o => (q.now, o)) + (q.step e).1.held msg =
      acceptances msg (os ++ (q.step e).2.map fun o => (q.now, o)) := by
  have hb := Queue.balanced_step msg q e
  have hl := h.ledger msg
  unfold Queue.Balanced at hb
  rw [answers_stamp, acceptances_stamp]
  omega

theorem QueueTrace.accepted_once_step (h : QueueTrace timeout os q) (e : Event) (msg : Nat) :
    acceptances msg (os ++ (q.step e).2.map fun o => (q.now, o)) =
      if msg < (q.step e).1.next then 1 else 0 := by
  rw [acceptances_stamp, h.accepted_once msg]
  by_cases he : e = .call
  · -- the call takes the next id, or does nothing
    subst he
    rcases Queue.call_accepts q with ⟨hn, ho⟩ | ⟨hn, ho⟩
    · simp only [Queue.step, hn, ho]
      by_cases hm : q.next = msg
      · subst hm
        simp
      · have hlt : msg < q.next + 1 ↔ msg < q.next := by omega
        simp [hm, hlt]
    · simp [Queue.step, hn, ho]
  · have hnone : (q.step e).2.count (.accepted msg) = 0 := List.count_eq_zero.2 fun hm => by
      have hshow := Queue.step_shows q e _ hm
      cases e <;> simp_all [Event.shows]
    rw [hnone, Queue.step_next he, Nat.add_zero]

theorem QueueTrace.armed_step (h : QueueTrace timeout os q) (e : Event) (T : Nat)
    (hT : (q.step e).1.failfast.state = some (.waiting T)) :
    ArmedQuiet T (os ++ (q.step e).2.map fun o => (q.now, o)) := by
  rcases Queue.step_waiting hT with ⟨hw, hleft⟩ | ⟨_, rfl, hout⟩
  · refine (h.armed T hw).append fun x hx b hb => ?_
    obtain ⟨o, ho, rfl⟩ := List.mem_map.1 hx
    exact hleft b (by rwa [show o = .left b from hb] at ho)
  · rw [hout]
    exact ArmedQuiet.armed _ _

theorem QueueTrace.closed_seen_step (h : QueueTrace timeout os q) (e : Event) (t : Nat)
    (ht : (t, Out.closed) ∈ os ++ (q.step e).2.map fun o => (q.now, o)) :
    (q.step e).1.closed = true := by
  rcases List.mem_append.1 ht with ht | ht
  · exact Queue.step_closed_mono (h.closed_seen t ht) e
  · obtain ⟨o, ho, heq⟩ := List.mem_map.1 ht
    obtain ⟨_, rfl⟩ := Prod.mk.inj heq
    exact (Queue.step_closing ho).1

theorem QueueTrace.recorded_first_step (h : QueueTrace timeout os q) (e : Event) :
    Machine.TraceLaw RecordedFirst (os ++ (q.step e).2.map fun o => (q.now, o)) := by
  refine (Machine.trace_law_append _ _ _).2 ⟨h.recorded_first, ?_⟩
  rw [Machine.trace_law_map]
  by_cases hc : Out.closed ∈ (q.step e).2
  · -- the step ends with `close`: the failure recorded, then the channel closed
    obtain ⟨_, L, hL, hnot⟩ := Queue.step_closing hc
    rw [hL, Machine.trace_law_append]
    refine ⟨Machine.TraceLaw.of_forall fun o ho _ hx => ?_, ?_⟩
    · exact absurd (show Out.closed ∈ L by rwa [show o = .closed from hx] at ho) hnot
    · simp only [Machine.trace_law_cons, Machine.trace_law_nil, RecordedFirst]
      refine ⟨fun hx => ?_, fun _ => ⟨q.now, by simp⟩, trivial⟩
      cases hx
  · refine Machine.TraceLaw.of_forall fun o ho _ hx => ?_
    exact absurd (show Out.closed ∈ (q.step e).2 by rwa [show o = .closed from hx] at ho) hc

/-- Within one step, nothing follows a `closed` output. -/
theorem terminal_after_close_out (q : Queue) (e : Event) :
    ((q.step e).2.map fun o => (q.now, o)).Pairwise TerminalAfterClose := by
  by_cases hc : Out.closed ∈ (q.step e).2
  · obtain ⟨_, L, hL, hnot⟩ := Queue.step_closing hc
    have hL' : ∀ x ∈ L.map (fun o => (q.now, o)), x.2 ≠ .closed := fun x hx hx' => by
      obtain ⟨o, ho, rfl⟩ := List.mem_map.1 hx
      exact hnot (by rwa [show o = .closed from hx'] at ho)
    rw [hL, List.map_append, List.pairwise_append]
    refine ⟨List.pairwise_of_forall_mem_list fun x hx _ _ hcl => absurd hcl (hL' x hx), ?_,
      fun x hx _ _ hcl => absurd hcl (hL' x hx)⟩
    simp [TerminalAfterClose]
  · refine List.pairwise_of_forall_mem_list fun x hx _ _ hcl => ?_
    obtain ⟨o, ho, rfl⟩ := List.mem_map.1 hx
    exact absurd (by rwa [show o = .closed from hcl] at ho) hc

theorem QueueTrace.terminal_after_close_step (h : QueueTrace timeout os q) (e : Event) :
    (os ++ (q.step e).2.map fun o => (q.now, o)).Pairwise TerminalAfterClose := by
  refine List.pairwise_append.2 ⟨h.terminal_after_close, terminal_after_close_out q e, ?_⟩
  -- an answer of this step after a `closed` of the run: the channel was already closed
  rintro ⟨t, o'⟩ hx y hy hcl m a d hans
  obtain rfl : o' = .closed := hcl
  have hclosed : q.closed = true := h.closed_seen t hx
  obtain ⟨o, ho, rfl⟩ := List.mem_map.1 hy
  exact Queue.step_answer_of_closed h.wf hclosed (by rwa [show o = .answered m a d from hans] at ho)

theorem QueueTrace.entered_after_timeout_step (h : QueueTrace timeout os q) (e : Event) :
    Machine.TraceLaw (EnteredAfterTimeout timeout)
      (os ++ (q.step e).2.map fun o => (q.now, o)) := by
  refine (Machine.trace_law_append _ _ _).2 ⟨h.entered_after_timeout, ?_⟩
  rw [Machine.trace_law_map]
  by_cases hin : Out.entered ∈ (q.step e).2
  · obtain ⟨T, m, hout, horigin, hle⟩ := Queue.step_entered h.wf hin
    rw [hout, ← h.timeout_eq]
    have hans : q.answer m .failfast ≠ .entered := by simp [Queue.answer]
    rcases horigin with hw | ⟨hn, rfl⟩
    · -- the wait was armed by an earlier step, and nothing left it since
      simp only [hw, reduceCtorEq, if_false, List.nil_append, Machine.trace_law_cons,
        Machine.trace_law_nil, EnteredAfterTimeout]
      refine ⟨fun _ => ⟨T, by simpa using h.armed T hw, hle⟩, fun hx => absurd hx hans,
        trivial⟩
    · -- the wait was armed by this very poll, with a zero timeout
      simp only [hn, if_true, List.singleton_append, Machine.trace_law_cons,
        Machine.trace_law_nil, EnteredAfterTimeout]
      refine ⟨fun hx => ?_, fun _ => ⟨q.now, by simpa using ArmedQuiet.armed q.now os, hle⟩,
        fun hx => absurd hx hans, trivial⟩
      cases hx
  · refine Machine.TraceLaw.of_forall fun o ho _ hx => ?_
    exact absurd (show Out.entered ∈ (q.step e).2 by rwa [show o = .entered from hx] at ho) hin

/-- Every step keeps the trace invariant. -/
theorem QueueTrace.step (h : QueueTrace timeout os q) (e : Event) :
    QueueTrace timeout (os ++ (Queue.machine.step q e).2) (Queue.machine.step q e).1 where
  wf := h.wf.step e
  timeout_eq := (Queue.step_timeout q e).trans h.timeout_eq
  ledger := h.ledger_step e
  accepted_once := h.accepted_once_step e
  armed := h.armed_step e
  closed_seen := h.closed_seen_step e
  no_panic x hx := by
    rcases List.mem_append.1 hx with hx | hx
    · exact h.no_panic x hx
    · obtain ⟨o, ho, rfl⟩ :=
        List.mem_map.1 (show x ∈ (q.step e).2.map fun o => (q.now, o) from hx)
      exact fun hp => Queue.step_no_panic h.wf e (by rwa [show o = .panicked from hp] at ho)
  recorded_first := h.recorded_first_step e
  terminal_after_close := h.terminal_after_close_step e
  entered_after_timeout := h.entered_after_timeout_step e

end Step

/-- Every run from `PoolQueue::spawn` keeps the trace invariant. -/
theorem QueueTrace.run (capacity timeout now : Nat) (evs : List Event) :
    QueueTrace timeout (Queue.machine.run (Queue.spawn capacity timeout now) evs).2
      (Queue.machine.run (Queue.spawn capacity timeout now) evs).1 := by
  have h := Machine.run_trace_invariant Queue.machine (fun _ => True) (QueueTrace timeout)
    (fun _ _ e _ h => h.step e) evs [] (Queue.spawn capacity timeout now) (fun _ _ => trivial)
    (QueueTrace.spawn capacity timeout now)
  simpa using h

/-- **The balancer queue's law**, over every run from `PoolQueue::spawn`:
    (1) every accepted message is answered exactly once: what was answered plus what the queue
        still holds is what was accepted, each id is accepted once, and by the time the worker
        has returned every accepted message was answered;
    (2) every output is one its input can show: the pool's future only right after the pool was
        polled ready, which leaves no failfast state, and a `FailFastError` only from a ready
        `entered`; in the failfast state a dequeued message is failed fast;
    (3) the gate is shut exactly in the failfast state, which is entered only after a wait armed
        at `T` saw no readiness until `T + timeout`, and left only when the pool is polled ready
        or failed;
    (4) a closed channel has its failure recorded, so no caller's `expect` panics; the failure is
        recorded before the channel closes, and every answer after that is the failure. -/
theorem queue_law (capacity timeout now : Nat) (evs : List Event) :
    let q := (Queue.machine.run (Queue.spawn capacity timeout now) evs).1
    let os := (Queue.machine.run (Queue.spawn capacity timeout now) evs).2
    (∀ msg, answers msg os + q.held msg = acceptances msg os ∧
      acceptances msg os = (if msg < q.next then 1 else 0) ∧
      (q.phase = .done → answers msg os = acceptances msg os)) ∧
    (∀ e, ∀ o ∈ (q.step e).2, e.shows o = true) ∧
    (∀ m, q.phase = .readying m →
      (q.step .pool_ready).2 = q.setReady.2 ++ [q.answer m .future] ∧
      (q.step .pool_ready).1.failfast.state = none) ∧
    (∀ m, q.phase = .readying m → q.failfast.isActive = true →
      (q.step .pool_pending).2 = [q.answer m .failfast]) ∧
    (q.failfast.gate = .shut ↔ q.failfast.isActive = true) ∧
    Machine.TraceLaw (EnteredAfterTimeout timeout) os ∧
    (∀ e, q.failfast.isActive = true → (q.step e).1.failfast.isActive = false →
      e = .pool_ready ∨ e = .pool_failed) ∧
    (q.closed = true → q.terminal = true) ∧ (∀ x ∈ os, x.2 ≠ .panicked) ∧
    Machine.TraceLaw RecordedFirst os ∧ os.Pairwise TerminalAfterClose := by
  intro q os
  have h : QueueTrace timeout os q := QueueTrace.run capacity timeout now evs
  -- a returned worker holds nothing: its channel is empty and it has no message in hand
  have hdone : q.phase = .done → ∀ msg, q.held msg = 0 := fun hd msg => by
    simp [Queue.held, h.wf.done_empty hd, hd]
  refine ⟨fun msg => ⟨h.ledger msg, h.accepted_once msg, fun hd => ?_⟩, Queue.step_shows q,
    fun _ hp => Queue.dispatch_when_ready hp, fun _ hp ha => Queue.failfast_fails hp ha,
    h.wf.failfast.gate_shut, h.entered_after_timeout, fun _ hon hoff =>
    Queue.step_leaves_failfast hon hoff, h.wf.closed_terminal, h.no_panic, h.recorded_first,
    h.terminal_after_close⟩
  have hl := h.ledger msg
  rw [hdone hd msg, Nat.add_zero] at hl
  exact hl

/-- The pool fails while the queue fails fast, without ever having been polled ready: the
    failfast state is left and the gate opened all the same (`PoolDriver::drive` calls
    `set_ready` whatever `ready` returned). -/
theorem failfast_left_on_failure :
    let r := Queue.machine.run (Queue.spawn 1 5 0)
      [.pollReady, .call, .recv, .pool_pending, .tick 5, .pool_pending, .pool_failed]
    r.2 = [(0, .reserved), (0, .accepted 0), (0, .armed), (5, .entered),
      (5, .answered 0 .failfast true), (5, .left true), (5, .recorded), (5, .closed)] ∧
    r.1.failfast.gate = .opened ∧ r.1.failfast.state = none := by
  decide

/-- Once the worker is in `close` or has returned with the gate shut, the gate stays shut: the
    worker never polls the pool again, so a caller's `poll_ready` waits forever, neither
    reserving a slot nor seeing the recorded failure. -/
theorem shut_after_close {q : Queue} (hp : q.phase = .draining ∨ q.phase = .done)
    (hshut : q.failfast.gate = .shut) (evs : List Event) :
    (Queue.machine.run q evs).1.failfast.gate = .shut ∧
      (Queue.machine.run q evs).1.pollReady.2 = [] ∧
      ∀ x ∈ (Queue.machine.run q evs).2, x.2 ≠ .reserved ∧ x.2 ≠ .rejected := by
  -- the invariant: the failfast as it was, the worker past its loop, no caller let through
  let inv : List (Nat × Out) → Queue → Prop := fun os q' =>
    q'.failfast = q.failfast ∧ (q'.phase = .draining ∨ q'.phase = .done) ∧
      ∀ x ∈ os, x.2 ≠ .reserved ∧ x.2 ≠ .rejected
  have hpoll : ∀ q' : Queue, q'.failfast = q.failfast → q'.pollReady = (q', []) := by
    intro q' hf
    unfold Queue.pollReady
    split
    · rfl
    · rw [hf, hshut]
  have hstep : ∀ os q' e, True → inv os q' → inv (os ++ (Queue.machine.step q' e).2)
      (Queue.machine.step q' e).1 := by
    rintro os q' e - ⟨hf, hph, hos⟩
    obtain ⟨hf', hph'⟩ := Queue.step_of_closing hph e
    refine ⟨hf'.trans hf, hph', fun x hx => ?_⟩
    rcases List.mem_append.1 hx with hx | hx
    · exact hos x hx
    · obtain ⟨o, ho, rfl⟩ :=
        List.mem_map.1 (show x ∈ (q'.step e).2.map fun o => (q'.now, o) from hx)
      have hshow := Queue.step_shows q' e o ho
      cases e
      case pollReady => simp [Queue.step, hpoll q' hf] at ho
      all_goals constructor <;> (rintro rfl; simp [Event.shows] at hshow)
  obtain ⟨hf, -, hos⟩ := Machine.run_trace_invariant Queue.machine (fun _ => True) inv hstep evs
    [] q (fun _ _ => trivial) ⟨rfl, hp, by simp⟩
  simp only [List.nil_append] at hf hos
  exact ⟨hf ▸ hshut, by rw [hpoll _ hf], hos⟩

example :
    let r := Queue.machine.run (Queue.spawn 1 5 0)
      [.pollReady, .call, .recv, .pool_pending, .tick 5, .pool_pending, .discovery_failed, .recv]
    r.1.phase = .done ∧ r.1.failfast.gate = .shut := by
  decide

end LinkerdProxy.Balance
