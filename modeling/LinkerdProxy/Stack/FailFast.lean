import LinkerdProxy.Stack.SwitchReady
import LinkerdProxy.Breaker.Basic

namespace LinkerdProxy.Stack.Failfast

open Machine
open Distribute (Readiness)
open Breaker (Tx GateState)

/-!
# Failing requests fast while a service is unready (`linkerd_stack::failfast`)

`FailFast` limits how long its inner service may stay unready.  From `Open` a pending inner
service resets the sleep to `timeout` from now and moves to `Waiting`; there the inner service is
polled first and, while it is pending, a done sleep moves the service into `FailFast`: the paired
gate is shut and a background task is spawned to drive the inner service to readiness.  In
`FailFast` the service is ready and every request fails at once, until the task is joined and
the service is back in `Open`.  The task opens the gate as soon as the inner service is ready,
before it returns.  `FailFast::layer_gated` pairs the service with a `Gate` that admits requests
only while the gate is open.

The system is the service driven by its owner, the background task driven by the runtime, and
the gate's receivers, which may all be dropped.  A `poll_ready` is given the time, what the inner
service answers at each of its polls in that call, whether the timer has fired a due sleep, and
whether the task's handle has completed.

* `fail_fast_gate` — in every state reached from `FailFast::layer_gated`, while a receiver is
  left, the gate is shut exactly while the service is in fail-fast with its task still driving
  the inner service, and open otherwise;
* `fail_fast_law` — over every run, `poll_ready` never panics (the `unreachable!` never fires);
  the service enters fail-fast only when the inner service has answered pending at every poll
  since the sleep was reset at least `timeout` before; a call fails fast only in fail-fast, goes
  to the inner service only outside it and never right after a pending `poll_ready`, and panics
  only right after one.
-/

/-- The background task `FailFast` spawns: driving the inner service to readiness, then, with
    the gate opened, finishing with its result. -/
inductive Task (S E : Type) where
  | running (inner : S)
  | finished (inner : S) (result : Except E Unit)

/-- `State`, the inner service by a handle `S`. -/
inductive State (S E : Type) where
  | Open (inner : S)
  | Waiting (inner : S)
  | FailFast (task : Task S E)
  /-- Empty state used only for transitions. -/
  | Invalid

/-- `FailFast`: the sleep is its deadline, and the gate its sending half, shared with the task. -/
structure FailFast (S E : Type) where
  timeout : Nat
  wait : Nat
  state : State S E
  gate : Option Tx

/-- `FailFast::new` at time `now`: the first sleep is never used. -/
def FailFast.new {S E : Type} (now timeout : Nat) (gate : Option Tx) (inner : S) :
    FailFast S E :=
  ⟨timeout, now, .Open inner, gate⟩

/-- `FailFast::layer_gated`'s service, with the channel `gate::channel` makes. -/
def FailFast.newGated {S E : Type} (now timeout : Nat) (inner : S) : FailFast S E :=
  FailFast.new now timeout (some ⟨.open, false⟩) inner

/-- What the owner, the runtime and the gate's receivers do, and for a `poll_ready` what the things
    it polls answer then. -/
inductive Event (E Req : Type) where
  | pollReady (now : Nat) (inner : List (Readiness E)) (fired : Bool) (joined : Bool)
  | call (req : Req)
  /-- The background task's `inner.ready()` completes. -/
  | taskReady (result : Except E Unit)
  /-- Every receiver of the gate is dropped. -/
  | rx_dropped

/-- What can be seen of a step. -/
inductive Out (E F : Type) where
  | inner_polled (r : Readiness E)
  /-- The sleep was reset at `now`, to end `timeout` later. -/
  | sleep_reset (now : Nat)
  /-- "Service entering failfast" -/
  | entered_failfast (now : Nat)
  /-- The background task completed and was joined. -/
  | joined (result : Except E Unit)
  /-- `poll_ready` returned. -/
  | returned (r : Readiness E)
  /-- The background task saw the inner service ready, or failing. -/
  | recovered (result : Except E Unit)
  | called (rsp : F)
  | call_failed (msg : String)
  | poll_panicked (msg : String)
  | call_panicked (msg : String)

/-- The readiness a joined task's result gives. -/
def Readiness.ofResult {E : Type} : Except E Unit → Readiness E
  | .ok () => .ready
  | .error e => .failed e

def UNREACHABLE_STATE : String :=
  "internal error: entered unreachable code: state should always be put back, this is a bug!"

section Poll

variable {S E F Req : Type}

/-- The `FailFast` arm of the loop: the task's handle is polled; once it has completed, the
    service it drove is back in `Open` with its readiness returned; until then the service is
    ready, so that requests fail. -/
def FailFast.failfastArm (ff : FailFast S E) (task : Task S E) (joined : Bool) :
    FailFast S E × List (Out E F) :=
  match task, joined with
  | .finished inner result, true =>
    ({ ff with state := .Open inner }, [.joined result, .returned (Readiness.ofResult result)])
  | task, _ => ({ ff with state := .FailFast task }, [.returned .ready])

/-- The `Waiting` arm: the inner service is polled first; while it is pending, a done sleep sends
    the service into fail-fast (the gate shut, whatever `shut` returns) and the loop goes round. -/
def FailFast.waitingArm (ff : FailFast S E) (inner : S) (now : Nat)
    (answers : List (Readiness E)) (fired joined : Bool) : FailFast S E × List (Out E F) :=
  match (nextAnswer answers).1 with
  | .pending =>
    -- a sleep completes no earlier than its deadline, when the timer fires it
    if fired && ff.wait ≤ now then
      let gate := ff.gate.map fun tx => tx.shut.getD tx
      let r := FailFast.failfastArm { ff with state := .FailFast (.running inner), gate }
        (.running inner) joined
      (r.1, .inner_polled .pending :: .entered_failfast now :: r.2)
    else ({ ff with state := .Waiting inner }, [.inner_polled .pending, .returned .pending])
  | answer => ({ ff with state := .Open inner }, [.inner_polled answer, .returned answer])

/-- `FailFast::poll_ready`: the loop, from the arm of the state. -/
def FailFast.pollReady (ff : FailFast S E) (now : Nat) (answers : List (Readiness E))
    (fired joined : Bool) : FailFast S E × List (Out E F) :=
  match ff.state with
  | .Open inner =>
    match nextAnswer answers with
    | (.pending, rest) =>
      let r := FailFast.waitingArm { ff with wait := now + ff.timeout, state := .Waiting inner }
        inner now rest fired joined
      (r.1, .inner_polled .pending :: .sleep_reset now :: r.2)
    | (answer, _) => ({ ff with state := .Open inner }, [.inner_polled answer, .returned answer])
  | .Waiting inner => ff.waitingArm inner now answers fired joined
  | .FailFast task => ff.failfastArm task joined
  | .Invalid => (ff, [.poll_panicked UNREACHABLE_STATE])

/-- `FailFast::call`, the inner service's response given by `svc_call`; `none` after a panic. -/
def FailFast.call (svc_call : S → Req → F) (ff : FailFast S E) (req : Req) :
    Option (FailFast S E) × List (Out E F) :=
  match ff.state with
  | .Open inner => (some ff, [.called (svc_call inner req)])
  | .FailFast _ => (some ff, [.call_failed "service in fail-fast"])
  | .Waiting _ => (none, [.call_panicked "poll_ready must be called"])
  | .Invalid => (none, [.call_panicked UNREACHABLE_STATE])

/-- The background task's `inner.ready()` completes: the gate is opened, whatever `open` returns,
    and the task finishes with the result. -/
def FailFast.taskReady (ff : FailFast S E) (result : Except E Unit) :
    FailFast S E × List (Out E F) :=
  match ff.state with
  | .FailFast (.running inner) =>
    ({ ff with state := .FailFast (.finished inner result),
               gate := ff.gate.map fun tx => tx.open.getD tx }, [.recovered result])
  | _ => (ff, [])

/-- A `FailFast` driven by its owner, with its task and the gate's receivers. -/
def FailFast.machine (svc_call : S → Req → F) :
    Machine (Option (FailFast S E)) (Event E Req) (Out E F) where
  step
    | none, _ => (none, [])
    | some ff, .pollReady now answers fired joined =>
      let r := ff.pollReady now answers fired joined
      (some r.1, r.2)
    | some ff, .call req => ff.call svc_call req
    | some ff, .taskReady result =>
      let r := ff.taskReady result
      (some r.1, r.2)
    | some ff, .rx_dropped =>
      (some { ff with gate := ff.gate.map fun tx => { tx with closed := true } }, [])

end Poll

/-! ### Reading a run's outputs -/

section Laws

variable {S E F : Type}

/-- What the outputs so far say: what `poll_ready` last returned; when the sleep was last reset,
    while the inner service has answered only pending since; and whether the service entered
    fail-fast and has not joined its task since. -/
structure Seen (E : Type) where
  returned : Option (Readiness E)
  pending_since : Option Nat
  failing : Bool

def Seen.next (v : Seen E) : Out E F → Seen E
  | .inner_polled r => if r.isPending then v else { v with pending_since := none }
  | .sleep_reset now => { v with pending_since := some now }
  | .entered_failfast _ => { v with failing := true }
  | .joined _ => { v with failing := false }
  | .returned r => { v with returned := some r }
  | _ => v

def seen (os : List (Out E F)) : Seen E := os.foldl Seen.next ⟨none, none, false⟩

@[simp] theorem seen_append (os ys : List (Out E F)) :
    seen (os ++ ys) = ys.foldl Seen.next (seen os) :=
  List.foldl_append

/-- The law of one output after the outputs `pre`: `poll_ready` never panics; fail-fast is
    entered at least `timeout` after a reset of the sleep, the inner service pending at every poll
    since; a call fails fast only in fail-fast, reaches the inner service only outside it and not
    right after a pending `poll_ready`, and panics only right after one. -/
def Law (timeout : Nat) (pre : List (Out E F)) : Out E F → Prop
  | .entered_failfast now => ∃ t, (seen pre).pending_since = some t ∧ t + timeout ≤ now
  | .call_failed msg => (seen pre).failing = true ∧ msg = "service in fail-fast"
  | .called _ => (seen pre).failing = false ∧ (seen pre).returned ≠ some .pending
  | .call_panicked msg => (seen pre).returned = some .pending ∧ msg = "poll_ready must be called"
  | .poll_panicked _ => False
  | _ => True

/-- What the outputs say of a state: `Open` outside fail-fast and not right after a pending
    `poll_ready`; `Waiting` right after one, the sleep reset `timeout` before its deadline with the
    inner service pending since; `FailFast` in fail-fast; never `Invalid`. -/
def Consistent (os : List (Out E F)) (ff : FailFast S E) : Prop :=
  match ff.state with
  | .Open _ => (seen os).failing = false ∧ (seen os).returned ≠ some .pending
  | .Waiting _ =>
    (seen os).failing = false ∧ (seen os).returned = some .pending ∧
      ∃ t, (seen os).pending_since = some t ∧ ff.wait = t + ff.timeout
  | .FailFast _ => (seen os).failing = true
  | .Invalid => False

/-- The gate state a service's state calls for: shut while its task drives the inner service. -/
def State.gateState : State S E → GateState
  | .FailFast (.running _) => .shut
  | _ => .open

/-- The gate, while a receiver is left, is in the state the service's state calls for. -/
def GateAgrees (ff : FailFast S E) : Prop :=
  ∀ tx, ff.gate = some tx → tx.closed = false → tx.state = ff.state.gateState

end Laws

/-! ### The gate -/

section Gate

variable {S E F Req : Type} {ff ff' : FailFast S E} {outs : List (Out E F)}

/-- The agreement reads only the gate and what the state calls for. -/
theorem GateAgrees.congr (h : GateAgrees ff) (hgate : ff'.gate = ff.gate)
    (hstate : ff'.state.gateState = ff.state.gateState) : GateAgrees ff' := by
  intro tx htx hopen
  rw [hstate, ← h tx (hgate ▸ htx) hopen]

/-- A gate set to the state a service's state calls for agrees with it, whatever the sending
    returns. -/
theorem GateAgrees.of_send {st : State S E} {gate : Option Tx} (g : GateState)
    (hst : st.gateState = g) :
    GateAgrees { ff with state := st, gate := gate.map fun tx => (tx.sendReplace g).getD tx } := by
  intro tx htx hopen
  obtain ⟨tx₀, htx₀, rfl⟩ := Option.map_eq_some_iff.mp htx
  cases hclosed : tx₀.closed with
  | false =>
    rw [Tx.sendReplace_of_not_closed hclosed]
    exact hst.symm
  | true =>
    -- a closed channel is left as it was, and the agreement asks nothing of it
    rw [Tx.sendReplace_of_closed hclosed, Option.getD_none, hclosed] at hopen
    cases hopen

theorem GateAgrees.failfastArm {task : Task S E} (h : GateAgrees { ff with state := .FailFast task })
    (joined : Bool) (harm : ff.failfastArm task joined = (ff', outs)) : GateAgrees ff' := by
  unfold FailFast.failfastArm at harm
  split at harm
  · -- the finished task opened the gate
    obtain ⟨rfl, rfl⟩ := Prod.mk.inj harm
    exact h.congr rfl rfl
  · obtain ⟨rfl, rfl⟩ := Prod.mk.inj harm
    exact h

theorem GateAgrees.waitingArm {inner : S} (h : GateAgrees ff) (hstate : ff.state.gateState = .open)
    (now : Nat) (answers : List (Readiness E)) (fired joined : Bool)
    (harm : ff.waitingArm inner now answers fired joined = (ff', outs)) : GateAgrees ff' := by
  unfold FailFast.waitingArm at harm
  split at harm
  · split at harm
    · -- the gate is shut as the task is spawned
      dsimp only at harm
      generalize hfail : FailFast.failfastArm _ (Task.running inner) joined = r at harm
      obtain ⟨rfl, rfl⟩ := Prod.mk.inj harm
      exact GateAgrees.failfastArm (GateAgrees.of_send .shut rfl) joined hfail
    · obtain ⟨rfl, rfl⟩ := Prod.mk.inj harm
      exact h.congr rfl hstate.symm
  · obtain ⟨rfl, rfl⟩ := Prod.mk.inj harm
    exact h.congr rfl hstate.symm

theorem GateAgrees.pollReady (h : GateAgrees ff) (now : Nat) (answers : List (Readiness E))
    (fired joined : Bool) (hpoll : ff.pollReady now answers fired joined = (ff', outs)) :
    GateAgrees ff' := by
  unfold FailFast.pollReady at hpoll
  split at hpoll
  · rename_i inner hstate
    split at hpoll
    · rename_i rest _
      dsimp only at hpoll
      generalize hwaiting : FailFast.waitingArm _ inner now rest fired joined = r at hpoll
      obtain ⟨rfl, rfl⟩ := Prod.mk.inj hpoll
      have hopen : ff.state.gateState = .open := by rw [hstate]; rfl
      have hwait : GateAgrees { ff with wait := now + ff.timeout, state := .Waiting inner } :=
        h.congr rfl hopen.symm
      exact hwait.waitingArm rfl now rest fired joined hwaiting
    · obtain ⟨rfl, rfl⟩ := Prod.mk.inj hpoll
      exact h.congr rfl (by rw [hstate])
  · rename_i inner hstate
    exact GateAgrees.waitingArm h (by rw [hstate]; rfl) now answers fired joined hpoll
  · rename_i task hstate
    exact GateAgrees.failfastArm (h.congr rfl (by rw [hstate])) joined hpoll
  · obtain ⟨rfl, rfl⟩ := Prod.mk.inj hpoll
    exact h

theorem GateAgrees.taskReady (h : GateAgrees ff) (result : Except E Unit)
    (hready : ff.taskReady result = (ff', outs)) : GateAgrees ff' := by
  unfold FailFast.taskReady at hready
  split at hready
  · -- the gate is opened as the task finishes
    obtain ⟨rfl, rfl⟩ := Prod.mk.inj hready
    exact GateAgrees.of_send .open rfl
  · obtain ⟨rfl, rfl⟩ := Prod.mk.inj hready
    exact h

/-- Every step keeps the gate in agreement. -/
theorem GateAgrees.step (svc_call : S → Req → F) {s : Option (FailFast S E)}
    (h : ∀ ff, s = some ff → GateAgrees ff) (e : Event E Req) :
    ∀ ff', ((FailFast.machine svc_call).step s e).1 = some ff' → GateAgrees ff' := by
  intro ff' hs
  rcases s with _ | ff
  · cases hs
  have hff := h ff rfl
  cases e with
  | pollReady now answers fired joined =>
    cases hs
    exact hff.pollReady now answers fired joined rfl
  | call req =>
    simp only [FailFast.machine, FailFast.call] at hs
    split at hs <;> first | (cases hs; exact hff) | cases hs
  | taskReady result =>
    cases hs
    exact hff.taskReady result rfl
  | rx_dropped =>
    cases hs
    intro tx htx hopen
    obtain ⟨tx₀, -, rfl⟩ := Option.map_eq_some_iff.mp htx
    cases hopen

end Gate

/-! ### The arms of the loop -/

section Arms

variable {S E F Req : Type} {k : Nat} {os outs : List (Out E F)} {ff ff' : FailFast S E}

theorem Readiness.of_result_is_pending (result : Except E Unit) :
    (Readiness.ofResult result).isPending = false := by
  cases result <;> rfl

/-- An answer of the inner service other than pending is returned, and the service is `Open`. -/
theorem inner_answered_live (h : TraceLaw (Law k) os) (hfailing : (seen os).failing = false)
    {r : Readiness E} (hr : r.isPending = false) {inner : S} :
    TraceLaw (Law k) (os ++ [Out.inner_polled r, .returned r]) ∧
      Consistent (os ++ [Out.inner_polled r, .returned r]) { ff with state := .Open inner } := by
  rw [List.append_cons]
  refine ⟨(trace_law_append_singleton _ _ _).mpr
    ⟨(trace_law_append_singleton _ _ _).mpr ⟨h, trivial⟩, trivial⟩, ?_, ?_⟩
  · simpa [Seen.next, hr] using hfailing
  · simp only [seen_append, List.foldl_cons, List.foldl_nil, Seen.next, hr]
    intro hpending
    cases r with
    | pending => cases hr
    | ready => cases hpending
    | failed e => cases hpending

/-- **The `FailFast` arm.**  In fail-fast the service is ready; a joined task puts it back in
    `Open`, with its result's readiness. -/
theorem FailFast.failfast_arm_live (h : TraceLaw (Law k) os) (hfailing : (seen os).failing = true)
    (task : Task S E) (joined : Bool) (harm : ff.failfastArm task joined = (ff', outs)) :
    TraceLaw (Law k) (os ++ outs) ∧ Consistent (os ++ outs) ff' ∧ ff'.timeout = ff.timeout := by
  unfold FailFast.failfastArm at harm
  split at harm
  · -- the task is joined: fail-fast ends
    rename_i inner result
    obtain ⟨rfl, rfl⟩ := Prod.mk.inj harm
    rw [List.append_cons]
    refine ⟨(trace_law_append_singleton _ _ _).mpr
      ⟨(trace_law_append_singleton _ _ _).mpr ⟨h, trivial⟩, trivial⟩, ⟨?_, ?_⟩, rfl⟩
    · simp [Seen.next]
    · simp only [seen_append, List.foldl_cons, List.foldl_nil, Seen.next, ne_eq,
        Option.some.injEq]
      intro hpending
      have := Readiness.of_result_is_pending result
      rw [hpending] at this
      cases this
  · obtain ⟨rfl, rfl⟩ := Prod.mk.inj harm
    exact ⟨(trace_law_append_singleton _ _ _).mpr ⟨h, trivial⟩,
      by simpa [Consistent, Seen.next] using hfailing, rfl⟩

/-- **The `Waiting` arm.**  While the inner service is pending, fail-fast is entered once the
    sleep is done, at least `timeout` after it was reset. -/
theorem FailFast.waiting_arm_live {inner : S} {now : Nat} {answers : List (Readiness E)}
    {fired joined : Bool} (harm : ff.waitingArm inner now answers fired joined = (ff', outs))
    (h : TraceLaw (Law ff.timeout) os) (hfailing : (seen os).failing = false) {t : Nat}
    (hsince : (seen os).pending_since = some t) (hwait : ff.wait = t + ff.timeout) :
    TraceLaw (Law ff.timeout) (os ++ outs) ∧ Consistent (os ++ outs) ff' ∧
      ff'.timeout = ff.timeout := by
  have hpolled : seen (os ++ [Out.inner_polled (F := F) .pending]) = seen os := by
    simp [Seen.next, Readiness.isPending]
  unfold FailFast.waitingArm at harm
  split at harm
  · split at harm
    · -- the sleep is done: fail-fast is entered, at least `timeout` after the reset
      rename_i hdue
      dsimp only at harm
      generalize hfail : FailFast.failfastArm _ (Task.running inner) joined = r at harm
      obtain ⟨rfl, rfl⟩ := Prod.mk.inj harm
      have hentered : Law ff.timeout (os ++ [Out.inner_polled .pending]) (.entered_failfast now) :=
        ⟨t, by rw [hpolled, hsince], by simp only [Bool.and_eq_true, decide_eq_true_eq] at hdue; omega⟩
      have hlaws : TraceLaw (Law ff.timeout) (os ++ [Out.inner_polled .pending, .entered_failfast now]) := by
        rw [List.append_cons]
        exact (trace_law_append_singleton _ _ _).mpr
          ⟨(trace_law_append_singleton _ _ _).mpr ⟨h, trivial⟩, hentered⟩
      obtain ⟨hlaws', hc, hk⟩ := FailFast.failfast_arm_live hlaws (by simp [Seen.next]) _ joined hfail
      rw [List.append_assoc] at hlaws' hc
      exact ⟨hlaws', hc, hk⟩
    · -- the inner service is still pending and the sleep is not done: the service waits
      obtain ⟨rfl, rfl⟩ := Prod.mk.inj harm
      rw [List.append_cons]
      refine ⟨(trace_law_append_singleton _ _ _).mpr
        ⟨(trace_law_append_singleton _ _ _).mpr ⟨h, trivial⟩, trivial⟩, ⟨?_, ?_, t, ?_, hwait⟩, rfl⟩ <;>
        simp [Seen.next, Readiness.isPending, hfailing, hsince]
  · rename_i answer hanswer
    obtain ⟨rfl, rfl⟩ := Prod.mk.inj harm
    exact (inner_answered_live h hfailing (Readiness.is_pending_eq_false hanswer)).imp_right
      fun hc => ⟨hc, rfl⟩

/-- **One `poll_ready`.**  From the arm of the state: in `Open` a pending inner service resets
    the sleep and the loop goes on waiting; `Invalid` is never reached. -/
theorem FailFast.poll_ready_live (hc : Consistent os ff) (h : TraceLaw (Law ff.timeout) os)
    (now : Nat) (answers : List (Readiness E)) (fired joined : Bool)
    (hpoll : ff.pollReady now answers fired joined = (ff', outs)) :
    TraceLaw (Law ff.timeout) (os ++ outs) ∧ Consistent (os ++ outs) ff' ∧
      ff'.timeout = ff.timeout := by
  unfold Consistent at hc
  unfold FailFast.pollReady at hpoll
  split at hpoll
  · rename_i inner hstate
    rw [hstate] at hc
    split at hpoll
    · -- the inner service is pending: the sleep is reset and the loop goes on waiting
      rename_i rest _
      dsimp only at hpoll
      generalize hwaiting : FailFast.waitingArm _ inner now rest fired joined = r at hpoll
      obtain ⟨rfl, rfl⟩ := Prod.mk.inj hpoll
      have hreset : TraceLaw (Law ff.timeout) (os ++ [Out.inner_polled .pending, .sleep_reset now]) := by
        rw [List.append_cons]
        exact (trace_law_append_singleton _ _ _).mpr
          ⟨(trace_law_append_singleton _ _ _).mpr ⟨h, trivial⟩, trivial⟩
      obtain ⟨hlaws, hc', hk⟩ := FailFast.waiting_arm_live hwaiting hreset
        (by simpa [Seen.next, Readiness.isPending] using hc.1)
        (by simp [Seen.next, Readiness.isPending]) rfl
      rw [List.append_assoc] at hlaws hc'
      exact ⟨hlaws, hc', hk⟩
    · rename_i answer _ hanswer _
      obtain ⟨rfl, rfl⟩ := Prod.mk.inj hpoll
      exact (inner_answered_live h hc.1 (Readiness.is_pending_eq_false hanswer)).imp_right
        fun hc => ⟨hc, rfl⟩
  · rename_i inner hstate
    rw [hstate] at hc
    obtain ⟨hfailing, -, t, hsince, hwait⟩ := hc
    exact FailFast.waiting_arm_live hpoll h hfailing hsince hwait
  · rename_i task hstate
    rw [hstate] at hc
    exact FailFast.failfast_arm_live h hc task joined hpoll
  · rename_i hstate
    rw [hstate] at hc
    exact hc.elim

/-- **One `call`.**  It goes to the inner service when `Open`, fails in fail-fast and panics while
    waiting; the state is kept. -/
theorem FailFast.call_live (svc_call : S → Req → F) {s' : Option (FailFast S E)}
    (hc : Consistent os ff) (h : TraceLaw (Law k) os) (req : Req)
    (hcall : ff.call svc_call req = (s', outs)) :
    TraceLaw (Law k) (os ++ outs) ∧ ∀ ff', s' = some ff' → ff' = ff ∧ Consistent (os ++ outs) ff' := by
  unfold Consistent at hc
  unfold FailFast.call at hcall
  split at hcall
  · rename_i inner hstate
    rw [hstate] at hc
    obtain ⟨rfl, rfl⟩ := Prod.mk.inj hcall
    refine ⟨(trace_law_append_singleton _ _ _).mpr ⟨h, hc⟩, ?_⟩
    rintro _ ⟨⟩
    refine ⟨rfl, ?_⟩
    unfold Consistent
    rw [hstate]
    simpa [Seen.next] using hc
  · rename_i task hstate
    rw [hstate] at hc
    obtain ⟨rfl, rfl⟩ := Prod.mk.inj hcall
    refine ⟨(trace_law_append_singleton _ _ _).mpr ⟨h, hc, rfl⟩, ?_⟩
    rintro _ ⟨⟩
    refine ⟨rfl, ?_⟩
    unfold Consistent
    rw [hstate]
    simpa [Seen.next] using hc
  · rename_i inner hstate
    rw [hstate] at hc
    obtain ⟨rfl, rfl⟩ := Prod.mk.inj hcall
    exact ⟨(trace_law_append_singleton _ _ _).mpr ⟨h, hc.2.1, rfl⟩, fun _ hs => (by cases hs)⟩
  · rename_i hstate
    rw [hstate] at hc
    exact hc.elim

/-- The task's progress is seen only as `recovered`, which keeps what the outputs say. -/
theorem FailFast.task_ready_live (hc : Consistent os ff) (h : TraceLaw (Law k) os)
    (result : Except E Unit) (hready : ff.taskReady result = (ff', outs)) :
    TraceLaw (Law k) (os ++ outs) ∧ Consistent (os ++ outs) ff' ∧ ff'.timeout = ff.timeout := by
  unfold FailFast.taskReady at hready
  split at hready
  · rename_i inner hstate
    obtain ⟨rfl, rfl⟩ := Prod.mk.inj hready
    unfold Consistent at hc
    rw [hstate] at hc
    exact ⟨(trace_law_append_singleton _ _ _).mpr ⟨h, trivial⟩,
      by simpa [Consistent, Seen.next] using hc, rfl⟩
  · obtain ⟨rfl, rfl⟩ := Prod.mk.inj hready
    simpa using ⟨h, hc⟩

end Arms

/-! ### Runs -/

section Runs

variable {S E F Req : Type} (svc_call : S → Req → F)

/-- What every run keeps: the law, and a live service's state agrees with its outputs. -/
structure Live (k : Nat) (os : List (Out E F)) (s : Option (FailFast S E)) : Prop where
  laws : TraceLaw (Law k) os
  state : ∀ ff, s = some ff → ff.timeout = k ∧ Consistent os ff

/-- Every step keeps what a run keeps. -/
theorem Live.step {k : Nat} {os : List (Out E F)} {s : Option (FailFast S E)} (h : Live k os s)
    (e : Event E Req) :
    Live k (os ++ ((FailFast.machine svc_call).step s e).2)
      ((FailFast.machine svc_call).step s e).1 := by
  rcases s with _ | ff
  · simpa [FailFast.machine] using h
  obtain ⟨hk, hc⟩ := h.state ff rfl
  cases e with
  | pollReady now answers fired joined =>
    obtain ⟨hlaws, hc', hk'⟩ :=
      FailFast.poll_ready_live hc (hk ▸ h.laws) now answers fired joined rfl
    exact ⟨hk ▸ hlaws, fun _ hs => by cases hs; exact ⟨hk' ▸ hk, hc'⟩⟩
  | call req =>
    obtain ⟨hlaws, hc'⟩ := FailFast.call_live svc_call hc h.laws req rfl
    refine ⟨hlaws, fun ff' hs => ?_⟩
    obtain ⟨rfl, hc''⟩ := hc' ff' hs
    exact ⟨hk, hc''⟩
  | taskReady result =>
    obtain ⟨hlaws, hc', hk'⟩ := FailFast.task_ready_live hc h.laws result rfl
    exact ⟨hlaws, fun _ hs => by cases hs; exact ⟨hk' ▸ hk, hc'⟩⟩
  | rx_dropped =>
    -- the gate is no part of what the outputs say
    refine ⟨by simpa [FailFast.machine] using h.laws, fun _ hs => ?_⟩
    cases hs
    exact ⟨hk, by simpa [FailFast.machine, Consistent] using hc⟩

/-- **Gate agreement.**  In every state reached from `FailFast::layer_gated`, whatever the
    owner, the background task and the gate's receivers do, while a receiver is left the gate is
    shut exactly when the service is in fail-fast with its task still driving the inner service,
    and open otherwise. -/
theorem fail_fast_gate (now timeout : Nat) (inner : S) (events : List (Event E Req)) :
    ∀ ff, ((FailFast.machine svc_call).run (some (FailFast.newGated now timeout inner))
        events).1 = some ff →
      ∀ tx, ff.gate = some tx → tx.closed = false →
        (tx.state = .shut ∧ ∃ inner, ff.state = .FailFast (.running inner)) ∨
        (tx.state = .open ∧ ∀ inner, ff.state ≠ .FailFast (.running inner)) := by
  intro ff hff tx htx hopen
  have hagree := run_invariant (FailFast.machine svc_call) (fun _ => True)
    (fun s => ∀ ff, s = some ff → GateAgrees ff) (fun s e _ h => GateAgrees.step svc_call h e)
    events (some (FailFast.newGated now timeout inner)) (fun _ _ => trivial)
    (fun _ hs => by cases hs; intro tx htx _; cases htx; rfl) ff hff tx htx hopen
  rw [hagree]
  -- what the state calls for, by the state
  rcases hst : ff.state with inner' | inner' | (inner' | ⟨inner', result⟩) | _
  · exact .inr ⟨rfl, fun _ h => (by cases h)⟩
  · exact .inr ⟨rfl, fun _ h => (by cases h)⟩
  · exact .inl ⟨rfl, inner', rfl⟩
  · exact .inr ⟨rfl, fun _ h => (by cases h)⟩
  · exact .inr ⟨rfl, fun _ h => (by cases h)⟩

/-- An inner service polled pending twice, the second time past the deadline, shuts the gate. -/
theorem fail_fast_gate_shut :
    ((FailFast.machine fun (_ : Unit) (_ : Unit) => ()).run (some (FailFast.newGated 0 5 ()))
        [.pollReady 0 [.pending] false false, .pollReady 10 [.pending] true false]).1 =
      some (⟨5, 5, .FailFast (.running ()), some ⟨.shut, false⟩⟩ : FailFast Unit Unit) ∧
    ((GateState.shut = .shut ∧
        ∃ inner, (State.FailFast (.running ()) : State Unit Unit) = .FailFast (.running inner)) ∨
      (GateState.shut = .open ∧
        ∀ inner, (State.FailFast (.running ()) : State Unit Unit) ≠ .FailFast (.running inner))) :=
  ⟨rfl, fail_fast_gate (fun (_ : Unit) (_ : Unit) => ()) 0 5 ()
    [.pollReady 0 [.pending] false false, .pollReady 10 [.pending] true false]
    ⟨5, 5, .FailFast (.running ()), some ⟨.shut, false⟩⟩ rfl ⟨.shut, false⟩ rfl rfl⟩

/-- **The fail-fast law.**  Over every run of a `FailFast` with or without a gate, whatever its
    inner service, timer and task do, `poll_ready` never panics; fail-fast is entered only when
    the inner service has answered pending at every poll since the sleep was reset at least
    `timeout` earlier; a call fails with "service in fail-fast" only in fail-fast, reaches the
    inner service only outside it and never right after a pending `poll_ready`, and panics
    ("poll_ready must be called") only right after one. -/
theorem fail_fast_law (now timeout : Nat) (gate : Option Tx) (inner : S)
    (events : List (Event E Req)) :
    TraceLaw (Law timeout)
      ((FailFast.machine svc_call).run (some (FailFast.new now timeout gate inner)) events).2 := by
  have h := run_trace_invariant (FailFast.machine svc_call) (fun _ => True) (Live timeout)
    (fun os s e _ h => h.step svc_call e) events [] (some (FailFast.new now timeout gate inner))
    (fun _ _ => trivial)
    ⟨trace_law_nil _, fun _ hs => by cases hs; exact ⟨rfl, rfl, fun h => (by cases h)⟩⟩
  simpa using h.laws

end Runs

end LinkerdProxy.Stack.Failfast
