import LinkerdProxy.Distribute.Service
import LinkerdProxy.Lib.Machine

namespace LinkerdProxy.Stack

open Machine
open Distribute (Readiness)

/-!
# Falling back to a secondary service (`linkerd_stack::SwitchReady`)

`SwitchReady` sends requests to a primary service, and to a secondary one once the primary has
taken longer than `switch_after` to become ready.  Its `poll_ready` loops over its state: in
`Primary` it polls the primary and, when that is pending, resets its sleep to `switch_after`
from now and waits; in `Waiting` it switches to `Secondary` once the sleep is done and otherwise
polls the primary again; in `Secondary` it polls the primary first, goes back to it when it
answers, and otherwise returns what the secondary answers.  `call` sends the request to the
service of the state, and panics while waiting.

A `poll_ready` is one step, given the time, what the primary answers at each of its polls in
that call, whether the timer has fired a due sleep, and what the secondary answers.  A sleep
never completes before its deadline.  What can be seen is the output: the polls of the two
services with their answers, the resets of the sleep, the switch, what `poll_ready` returns, the
calls and the panic.

* `Live.step` — what one step keeps, from one lemma for each arm of the loop;
* `switch_ready_routing` — over every run, `poll_ready` returns the answer of the service it
  polled last, and a call goes to that service: to the primary only when it answered other than
  pending (or nothing was polled yet), to the secondary only when it was polled last; a call
  panics only right after the primary was found pending;
* `switch_ready_switch_after` — the service switches only when the primary has answered pending
  at every poll since the sleep was reset at least `switch_after` earlier, and polls the
  secondary only after such a switch, with the primary pending at every poll since and just
  before.
-/

/-- `State`. -/
inductive State where
  | Primary | Waiting | Secondary
  deriving DecidableEq, Repr

/-- `SwitchReady`, its two services apart: the sleep is its deadline. -/
structure SwitchReady where
  switch_after : Nat
  deadline : Nat
  state : State
  deriving DecidableEq, Repr

/-- `SwitchReady::new` at time `now`: the first sleep is never used. -/
def SwitchReady.new (now switch_after : Nat) : SwitchReady := ⟨switch_after, now, .Primary⟩

inductive Which where
  | primary | secondary
  deriving DecidableEq, Repr

/-- What the owner does, and for a `poll_ready` what the things it polls answer then: the
    primary at each of its polls in turn (pending once the list runs out), the timer, and the
    secondary. -/
inductive Event (E Req : Type) where
  | pollReady (now : Nat) (primary : List (Readiness E)) (fired : Bool) (secondary : Readiness E)
  | call (req : Req)

/-- What can be seen of a step. -/
inductive Out (E Req : Type) where
  | primary_polled (r : Readiness E)
  | secondary_polled (r : Readiness E)
  /-- The sleep was reset at `now`, to end `switch_after` later. -/
  | sleep_reset (now : Nat)
  /-- "Switching to secondary service" -/
  | switched (now : Nat)
  /-- `poll_ready` returned. -/
  | returned (r : Readiness E)
  | called (svc : Which) (req : Req)
  | call_panicked (msg : String)

section Poll

variable {E Req : Type}

/-- The primary's answer at its next poll, and the answers left. -/
def nextAnswer : List (Readiness E) → Readiness E × List (Readiness E)
  | [] => (.pending, [])
  | r :: rs => (r, rs)

/-- The `Secondary` arm of the loop: the primary is polled first, and while it is pending the
    secondary's answer is returned. -/
def SwitchReady.secondaryArm (sw : SwitchReady) (primary : List (Readiness E))
    (secondary : Readiness E) : SwitchReady × List (Out E Req) :=
  match (nextAnswer primary).1 with
  | .pending => (sw, [.primary_polled .pending, .secondary_polled secondary, .returned secondary])
  | answer => ({ sw with state := .Primary }, [.primary_polled answer, .returned answer])

/-- The `Waiting` arm: the sleep is polled first and, once it is done, the service switches and
    goes round; otherwise the primary is polled. -/
def SwitchReady.waitingArm (sw : SwitchReady) (now : Nat) (primary : List (Readiness E))
    (fired : Bool) (secondary : Readiness E) : SwitchReady × List (Out E Req) :=
  -- a sleep completes no earlier than its deadline, when the timer fires it
  if fired && sw.deadline ≤ now then
    let r := SwitchReady.secondaryArm { sw with state := .Secondary } primary secondary
    (r.1, .switched now :: r.2)
  else
    match (nextAnswer primary).1 with
    | .pending => (sw, [.primary_polled .pending, .returned .pending])
    | answer => ({ sw with state := .Primary }, [.primary_polled answer, .returned answer])

/-- `SwitchReady::poll_ready`: the loop, from the arm of the state. -/
def SwitchReady.pollReady (sw : SwitchReady) (now : Nat) (primary : List (Readiness E))
    (fired : Bool) (secondary : Readiness E) : SwitchReady × List (Out E Req) :=
  match sw.state with
  | .Primary =>
    match nextAnswer primary with
    | (.pending, rest) =>
      let r := SwitchReady.waitingArm { sw with deadline := now + sw.switch_after, state := .Waiting }
        now rest fired secondary
      (r.1, .primary_polled .pending :: .sleep_reset now :: r.2)
    | (answer, _) => (sw, [.primary_polled answer, .returned answer])
  | .Waiting => sw.waitingArm now primary fired secondary
  | .Secondary => sw.secondaryArm primary secondary

/-- `SwitchReady::call`; `none` after the panic. -/
def SwitchReady.call (sw : SwitchReady) (req : Req) : Option SwitchReady × List (Out E Req) :=
  match sw.state with
  | .Primary => (some sw, [.called .primary req])
  | .Secondary => (some sw, [.called .secondary req])
  | .Waiting => (none, [.call_panicked "called before ready!"])

/-- A `SwitchReady` driven by its owner. -/
def machine : Machine (Option SwitchReady) (Event E Req) (Out E Req) where
  step
    | none, _ => (none, [])
    | some sw, .pollReady now primary fired secondary =>
      let r := sw.pollReady now primary fired secondary
      (some r.1, r.2)
    | some sw, .call req => sw.call req

end Poll

/-! ### Reading a run's outputs -/

section Laws

variable {E Req : Type}

/-- What the outputs so far say: the service polled last, with its answer; when the sleep was
    last reset, while the primary has answered only pending since; and whether the service
    switched since the primary last answered other than pending. -/
structure Seen (E : Type) where
  last : Option (Which × Readiness E)
  pending_since : Option Nat
  switched : Bool

def Seen.next (v : Seen E) : Out E Req → Seen E
  | .primary_polled r =>
    if r.isPending then { v with last := some (.primary, r) } else ⟨some (.primary, r), none, false⟩
  | .secondary_polled r => { v with last := some (.secondary, r) }
  | .sleep_reset now => { v with pending_since := some now }
  | .switched _ => { v with switched := true }
  | _ => v

def seen (os : List (Out E Req)) : Seen E := os.foldl Seen.next ⟨none, none, false⟩

@[simp] theorem seen_append (os ys : List (Out E Req)) :
    seen (os ++ ys) = ys.foldl Seen.next (seen os) :=
  List.foldl_append

/-- The routing law of one output after the outputs `pre`: `poll_ready` returns what the service
    polled last answered, and a call goes to the service polled last, or panics right after a
    pending primary. -/
def RoutingLaw (pre : List (Out E Req)) : Out E Req → Prop
  | .returned r => ∃ svc, (seen pre).last = some (svc, r)
  | .called .primary _ =>
    (seen pre).last = none ∨ ∃ r, (seen pre).last = some (.primary, r) ∧ r.isPending = false
  | .called .secondary _ => ∃ r, (seen pre).last = some (.secondary, r)
  | .call_panicked msg => (seen pre).last = some (.primary, .pending) ∧ msg = "called before ready!"
  | _ => True

/-- The switching law of one output after the outputs `pre`: the sleep is reset right after a
    pending primary; the switch comes at least `switch_after` after a reset with only pending
    answers of the primary since; the secondary is polled only after a switch, with only pending
    answers of the primary since and one just before. -/
def SwitchLaw (switch_after : Nat) (pre : List (Out E Req)) : Out E Req → Prop
  | .sleep_reset _ => (seen pre).last = some (.primary, .pending)
  | .switched now => ∃ t, (seen pre).pending_since = some t ∧ t + switch_after ≤ now
  | .secondary_polled _ => (seen pre).switched = true ∧ (seen pre).last = some (.primary, .pending)
  | _ => True

/-- Both laws. -/
def Law (switch_after : Nat) (pre : List (Out E Req)) (o : Out E Req) : Prop :=
  RoutingLaw pre o ∧ SwitchLaw switch_after pre o

/-- What the outputs say of a state: `Primary` when nothing, or a primary answer other than
    pending, came last; `Waiting` right after a pending primary, the sleep reset `switch_after`
    before its deadline with only pending answers since; `Secondary` after a switch, with the
    secondary polled last. -/
def Consistent (os : List (Out E Req)) (sw : SwitchReady) : Prop :=
  match sw.state with
  | .Primary =>
    (seen os).last = none ∨ ∃ r, (seen os).last = some (.primary, r) ∧ r.isPending = false
  | .Waiting =>
    (seen os).last = some (.primary, .pending) ∧
      ∃ t, (seen os).pending_since = some t ∧ sw.deadline = t + sw.switch_after
  | .Secondary => (seen os).switched = true ∧ ∃ r, (seen os).last = some (.secondary, r)

end Laws

/-! ### The arms of the loop -/

section Arms

variable {E Req : Type} {k : Nat} {os : List (Out E Req)} {sw sw' : SwitchReady}
  {outs : List (Out E Req)}

theorem Readiness.is_pending_eq_false {r : Readiness E} (h : r ≠ .pending) :
    r.isPending = false := by
  cases r with
  | pending => exact absurd rfl h
  | ready => rfl
  | failed e => rfl

/-- A primary answer other than pending is returned, and the service is back on the primary. -/
theorem primary_answered_live (h : TraceLaw (Law k) os) {r : Readiness E}
    (hr : r.isPending = false) (hstate : sw'.state = .Primary) :
    TraceLaw (Law k) (os ++ [Out.primary_polled r, .returned r]) ∧
      Consistent (os ++ [Out.primary_polled r, .returned r]) sw' := by
  have hseen : seen (os ++ [Out.primary_polled r]) = ⟨some (.primary, r), none, false⟩ := by
    simp [Seen.next, hr]
  rw [List.append_cons]
  refine ⟨(trace_law_append_singleton _ _ _).mpr
    ⟨(trace_law_append_singleton _ _ _).mpr ⟨h, trivial, trivial⟩,
      ⟨.primary, by rw [hseen]⟩, trivial⟩, ?_⟩
  unfold Consistent
  rw [hstate]
  exact .inr ⟨r, by simp [Seen.next, hr], hr⟩

/-- **The `Secondary` arm.**  After a switch, the primary is polled first; its answer other than
    pending takes the service back to it, and while it is pending the secondary's answer is
    returned. -/
theorem SwitchReady.secondary_arm_live (h : TraceLaw (Law k) os) (hsw : (seen os).switched = true)
    (hstate : sw.state = .Secondary) (primary : List (Readiness E)) (secondary : Readiness E)
    (harm : sw.secondaryArm primary secondary = (sw', outs)) :
    TraceLaw (Law k) (os ++ outs) ∧ Consistent (os ++ outs) sw' ∧
      sw'.switch_after = sw.switch_after := by
  unfold SwitchReady.secondaryArm at harm
  split at harm
  · -- the primary is still pending: the secondary is polled, and answers
    obtain ⟨rfl, rfl⟩ := Prod.mk.inj harm
    have hpolled : seen (os ++ [Out.primary_polled .pending]) =
        { seen os with last := some (.primary, .pending) } := by
      simp [Seen.next, Readiness.isPending]
    have hsecondary : seen (os ++ [Out.primary_polled .pending, .secondary_polled secondary]) =
        { seen os with last := some (.secondary, secondary) } := by
      simp [Seen.next, Readiness.isPending]
    refine ⟨?_, ?_, rfl⟩
    · rw [List.append_cons, List.append_cons]
      refine (trace_law_append_singleton _ _ _).mpr ⟨(trace_law_append_singleton _ _ _).mpr
        ⟨(trace_law_append_singleton _ _ _).mpr ⟨h, trivial, trivial⟩, trivial, ?_⟩, ?_⟩
      · exact ⟨by rw [hpolled]; exact hsw, by rw [hpolled]⟩
      · refine ⟨⟨.secondary, ?_⟩, trivial⟩
        rw [← List.append_cons, hsecondary]
    · unfold Consistent
      rw [hstate]
      refine ⟨?_, secondary, ?_⟩ <;> simp [Seen.next, Readiness.isPending, hsw]
  · rename_i answer hanswer
    obtain ⟨rfl, rfl⟩ := Prod.mk.inj harm
    exact (primary_answered_live h (Readiness.is_pending_eq_false hanswer) rfl).imp_right
      fun hc => ⟨hc, rfl⟩

/-- **The `Waiting` arm.**  A done sleep switches the service, at least `switch_after` after
    the reset; until then the primary is polled again. -/
theorem SwitchReady.waiting_arm_live (hc : Consistent os sw)
    (h : TraceLaw (Law sw.switch_after) os) (hstate : sw.state = .Waiting) (now : Nat)
    (primary : List (Readiness E)) (fired : Bool) (secondary : Readiness E)
    (harm : sw.waitingArm now primary fired secondary = (sw', outs)) :
    TraceLaw (Law sw.switch_after) (os ++ outs) ∧ Consistent (os ++ outs) sw' ∧
      sw'.switch_after = sw.switch_after := by
  unfold Consistent at hc
  rw [hstate] at hc
  obtain ⟨hlast, t, hsince, hdeadline⟩ := hc
  unfold SwitchReady.waitingArm at harm
  split at harm
  · -- the sleep is done: the switch comes at least `switch_after` after the reset
    rename_i hdue
    dsimp only at harm
    generalize hsecondary : SwitchReady.secondaryArm { sw with state := .Secondary } primary
      secondary = r at harm
    obtain ⟨rfl, rfl⟩ := Prod.mk.inj harm
    have hlaw : Law sw.switch_after os (.switched now) :=
      ⟨trivial, t, hsince, by simp only [Bool.and_eq_true, decide_eq_true_eq] at hdue; omega⟩
    obtain ⟨hlaws, hc', hk⟩ := SwitchReady.secondary_arm_live
      ((trace_law_append_singleton _ _ _).mpr ⟨h, hlaw⟩) (by simp [Seen.next]) rfl primary
      secondary hsecondary
    rw [List.append_cons]
    exact ⟨hlaws, hc', hk⟩
  · split at harm
    · -- the primary is still pending: the service keeps waiting
      obtain ⟨rfl, rfl⟩ := Prod.mk.inj harm
      have hpolled : seen (os ++ [Out.primary_polled .pending]) =
          { seen os with last := some (.primary, .pending) } := by
        simp [Seen.next, Readiness.isPending]
      refine ⟨?_, ?_, rfl⟩
      · rw [List.append_cons]
        exact (trace_law_append_singleton _ _ _).mpr
          ⟨(trace_law_append_singleton _ _ _).mpr ⟨h, trivial, trivial⟩,
            ⟨.primary, by rw [hpolled]⟩, trivial⟩
      · unfold Consistent
        rw [hstate]
        exact ⟨by simp [Seen.next, Readiness.isPending], t,
          by simp [Seen.next, Readiness.isPending, hsince], hdeadline⟩
    · rename_i answer hanswer
      obtain ⟨rfl, rfl⟩ := Prod.mk.inj harm
      exact (primary_answered_live h (Readiness.is_pending_eq_false hanswer) rfl).imp_right
        fun hc => ⟨hc, rfl⟩

/-- **One `poll_ready`.**  From the arm of the state: in `Primary` a pending primary resets the
    sleep, right after its poll, and the loop goes on waiting. -/
theorem SwitchReady.poll_ready_live (hc : Consistent os sw)
    (h : TraceLaw (Law sw.switch_after) os) (now : Nat) (primary : List (Readiness E)) (fired : Bool)
    (secondary : Readiness E) (hpoll : sw.pollReady now primary fired secondary = (sw', outs)) :
    TraceLaw (Law sw.switch_after) (os ++ outs) ∧ Consistent (os ++ outs) sw' ∧
      sw'.switch_after = sw.switch_after := by
  unfold SwitchReady.pollReady at hpoll
  split at hpoll
  · rename_i hstate
    split at hpoll
    · -- the primary is pending: the sleep is reset and the loop goes on waiting
      rename_i rest _
      dsimp only at hpoll
      generalize hwaiting : SwitchReady.waitingArm
        { sw with deadline := now + sw.switch_after, state := .Waiting } now rest fired
        secondary = r at hpoll
      obtain ⟨rfl, rfl⟩ := Prod.mk.inj hpoll
      have hpolled : seen (os ++ [Out.primary_polled .pending]) =
          { seen os with last := some (.primary, .pending) } := by
        simp [Seen.next, Readiness.isPending]
      have hreset : TraceLaw (Law sw.switch_after)
          (os ++ [Out.primary_polled .pending, .sleep_reset now]) := by
        rw [List.append_cons]
        exact (trace_law_append_singleton _ _ _).mpr
          ⟨(trace_law_append_singleton _ _ _).mpr ⟨h, trivial, trivial⟩, trivial,
            show (seen _).last = _ by rw [hpolled]⟩
      have hwait : Consistent (os ++ [Out.primary_polled .pending, .sleep_reset now])
          { sw with deadline := now + sw.switch_after, state := .Waiting } :=
        ⟨by simp [Seen.next, Readiness.isPending], now,
          by simp [Seen.next, Readiness.isPending], rfl⟩
      obtain ⟨hlaws, hc', hk⟩ :=
        SwitchReady.waiting_arm_live hwait hreset rfl now rest fired secondary hwaiting
      rw [List.append_assoc] at hlaws hc'
      exact ⟨hlaws, hc', hk⟩
    · rename_i answer _ hanswer _
      obtain ⟨rfl, rfl⟩ := Prod.mk.inj hpoll
      exact (primary_answered_live h (Readiness.is_pending_eq_false hanswer) hstate).imp_right
        fun hc => ⟨hc, rfl⟩
  · rename_i hstate
    exact SwitchReady.waiting_arm_live hc h hstate now primary fired secondary hpoll
  · rename_i hstate
    unfold Consistent at hc
    rw [hstate] at hc
    exact SwitchReady.secondary_arm_live h hc.1 hstate primary secondary hpoll

/-- **One `call`.**  It goes to the service of the state, or panics while waiting; what the
    outputs say is kept. -/
theorem SwitchReady.call_live {s' : Option SwitchReady} (h : TraceLaw (Law k) os)
    (hc : Consistent os sw) (req : Req) (hcall : sw.call req = (s', outs)) :
    TraceLaw (Law k) (os ++ outs) ∧ ∀ sw', s' = some sw' → sw' = sw ∧ Consistent (os ++ outs) sw' := by
  unfold Consistent at hc
  unfold SwitchReady.call at hcall
  split at hcall
  · rename_i hstate
    rw [hstate] at hc
    obtain ⟨rfl, rfl⟩ := Prod.mk.inj hcall
    refine ⟨(trace_law_append_singleton _ _ _).mpr ⟨h, hc, trivial⟩, ?_⟩
    rintro _ ⟨⟩
    refine ⟨rfl, ?_⟩
    unfold Consistent
    rw [hstate]
    simpa [Seen.next] using hc
  · rename_i hstate
    rw [hstate] at hc
    obtain ⟨rfl, rfl⟩ := Prod.mk.inj hcall
    refine ⟨(trace_law_append_singleton _ _ _).mpr ⟨h, hc.2, trivial⟩, ?_⟩
    rintro _ ⟨⟩
    refine ⟨rfl, ?_⟩
    unfold Consistent
    rw [hstate]
    simpa [Seen.next] using hc
  · rename_i hstate
    rw [hstate] at hc
    obtain ⟨rfl, rfl⟩ := Prod.mk.inj hcall
    exact ⟨(trace_law_append_singleton _ _ _).mpr ⟨h, ⟨hc.1, rfl⟩, trivial⟩,
      fun _ hs => (by cases hs)⟩

end Arms

/-! ### Runs -/

section Runs

variable {E Req : Type}

/-- What every run keeps: both laws, and a live service's state agrees with what its outputs
    say. -/
structure Live (k : Nat) (os : List (Out E Req)) (s : Option SwitchReady) : Prop where
  laws : TraceLaw (Law k) os
  state : ∀ sw, s = some sw → sw.switch_after = k ∧ Consistent os sw

/-- Every step keeps what a run keeps. -/
theorem Live.step {k : Nat} {os : List (Out E Req)} {s : Option SwitchReady} (h : Live k os s)
    (e : Event E Req) : Live k (os ++ (machine.step s e).2) (machine.step s e).1 := by
  cases s with
  | none => simpa [machine] using h
  | some sw =>
    obtain ⟨hk, hc⟩ := h.state sw rfl
    cases e with
    | pollReady now primary fired secondary =>
      obtain ⟨hlaws, hc', hk'⟩ := SwitchReady.poll_ready_live hc (hk ▸ h.laws) now primary fired
        secondary rfl
      exact ⟨hk ▸ hlaws, fun _ hs => by cases hs; exact ⟨hk' ▸ hk, hc'⟩⟩
    | call req =>
      obtain ⟨hlaws, hc'⟩ := SwitchReady.call_live h.laws hc req rfl
      refine ⟨hlaws, fun sw' hs => ?_⟩
      obtain ⟨rfl, hc''⟩ := hc' sw' hs
      exact ⟨hk, hc''⟩

/-- Every run from `SwitchReady::new` keeps what a run keeps. -/
theorem Live.run (now switch_after : Nat) (events : List (Event E Req)) :
    Live switch_after (machine.run (some (SwitchReady.new now switch_after)) events).2
      (machine.run (some (SwitchReady.new now switch_after)) events).1 := by
  have h := run_trace_invariant machine (fun _ => True) (Live switch_after)
    (fun os s e _ h => h.step e) events [] (some (SwitchReady.new now switch_after))
    (fun _ _ => trivial) ⟨trace_law_nil _, fun _ hs => by cases hs; exact ⟨rfl, .inl rfl⟩⟩
  simpa using h

/-- **Routing.**  Over every run of a `SwitchReady`, `poll_ready` returns what the service it
    polled last answered, and a call goes to that service: to the primary only when it answered
    other than pending or nothing was polled yet, to the secondary only when it was polled last;
    a call panics ("called before ready!") only right after the primary was found pending. -/
theorem switch_ready_routing (now switch_after : Nat) (events : List (Event E Req)) :
    TraceLaw RoutingLaw (machine.run (some (SwitchReady.new now switch_after)) events).2 :=
  (Live.run now switch_after events).laws.mono fun _ _ hlaw => hlaw.1

/-- **Switching after `switch_after`.**  Over every run, the sleep is reset only right after a
    pending primary; the service switches to the secondary only when the primary has answered
    pending at every poll since a reset at least `switch_after` before; and it polls the
    secondary only after such a switch, the primary having answered pending at every poll since
    and just before. -/
theorem switch_ready_switch_after (now switch_after : Nat) (events : List (Event E Req)) :
    TraceLaw (SwitchLaw switch_after)
      (machine.run (some (SwitchReady.new now switch_after)) events).2 :=
  (Live.run now switch_after events).laws.mono fun _ _ hlaw => hlaw.2

end Runs

end LinkerdProxy.Stack
