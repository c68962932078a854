import LinkerdProxy.Distribute.Random
import LinkerdProxy.Lib.Machine

namespace LinkerdProxy.Reconnect

open Machine
open Distribute (Readiness)

/-!
# Reconnecting services (`linkerd-reconnect`)

A `Reconnect` service wraps an inner service that it makes, and makes again when it fails.  It
is `Disconnected` (with the backoff stream to wait on, if any), `Pending` (a new inner service
not yet ready, and the backoff kept for its failure) or `Connected`.  Its `poll_ready` loops
through these: a failure of the inner service is handed to `recover`, whose error is returned
and whose backoff is waited on, one element before each new inner service; a failed connection
keeps the backoff it already had, and a backoff stream that ends is dropped.  `call` sends the
request to the connected service, and is unreachable otherwise.

The inner service and the backoff stream are given by what they yield when the loop waits on
them; `recover` and the inner `new_service` by functions.  Each step is one pass of the loop:
it returns from `poll_ready` (`returned`) or goes round again.  What can be seen is the output:
what `poll_ready` returns, the calls to `recover` and to `new_service`, the backoff elements
waited for, the responses and the panics.

* `Live.step` — what one step keeps; every law below is read from it;
* `reconnect_contract` — over every run from `Reconnect::new`, `poll_ready` never panics (the
  `unwrap` and the `expect` on the backoff never fire), and `call` panics only when the last
  thing that happened was not a ready `poll_ready`;
* `reconnect_backoff` — every new inner service but the first is made after an element of the
  backoff stream (or its end) since the last one, and between two connections all the elements
  waited for come from one backoff stream, until it ends.
-/

/-- `State`, the inner services by handles `S` and the backoff streams by handles `B`;
    `panicked` is the state after a panic. -/
inductive State (S B : Type) where
  | disconnected (backoff : Option B)
  | pending (service : Option S) (backoff : Option B)
  | connected (service : S)
  | panicked

/-- What the owner does, and what the things the loop waits on yield then: the inner service's
    readiness, and the backoff stream's next element (`none` while it is pending, `some none`
    at its end). -/
inductive Event (E Req : Type) where
  | poll (service : Readiness E) (backoff : Option (Option Unit))
  | call (req : Req)

/-- What can be seen of a step. -/
inductive Out (E F B : Type) where
  /-- `poll_ready` returned. -/
  | returned (r : Readiness E)
  /-- The inner service failed, and its error was handed to `recover`. -/
  | recovered (error : E)
  /-- The backoff stream yielded an element. -/
  | ticked (backoff : B)
  /-- The backoff stream ended, and was dropped. -/
  | backoff_ended (backoff : B)
  /-- A new inner service was made. -/
  | newService
  | called (rsp : F)
  | poll_panicked (msg : String)
  | call_panicked (msg : String)

section Machine

variable {S B E Req F : Type} (recover : E → Except E B) (newService : S)
  (svc_call : S → Req → F)

/-- One pass of the loop of `poll_ready`, with the inner service answering `answer` and the
    backoff stream `tick` if the state waits on them. -/
def pollStep (s : State S B) (answer : Readiness E) (tick : Option (Option Unit)) :
    State S B × List (Out E F B) :=
  match s with
  | .connected svc =>
    match answer with
    | .ready => (.connected svc, [.returned .ready])
    | .pending => (.connected svc, [.returned .pending])
    | .failed error =>
      -- `recover(error)?`: its error is returned with the state as it was
      match recover error with
      | .ok backoff => (.disconnected (some backoff), [.recovered error])
      | .error e => (.connected svc, [.recovered error, .returned (.failed e)])
  | .pending none _ => (.panicked, [.poll_panicked "called `Option::unwrap()` on a `None` value"])
  | .pending (some svc) backoff =>
    match answer with
    -- connected: returned at once, without polling the service again
    | .ready => (.connected svc, [.returned .ready])
    | .pending => (.pending (some svc) backoff, [.returned .pending])
    | .failed error =>
      match recover error with
      | .ok new_backoff => (.disconnected (some (backoff.getD new_backoff)), [.recovered error])
      | .error e => (.pending (some svc) backoff, [.recovered error, .returned (.failed e)])
  | .disconnected none => (.pending (some newService) none, [.newService])
  | .disconnected (some backoff) =>
    match tick with
    | none => (.disconnected (some backoff), [.returned .pending])
    -- only a backoff stream that did not complete is reused
    | some (some ()) => (.pending (some newService) (some backoff), [.ticked backoff, .newService])
    | some none => (.pending (some newService) none, [.backoff_ended backoff, .newService])
  | .panicked => (.panicked, [])

/-- `Reconnect::call`. -/
def call (s : State S B) (req : Req) : State S B × List (Out E F B) :=
  match s with
  | .connected svc => (.connected svc, [.called (svc_call svc req)])
  | .panicked => (.panicked, [])
  | _ => (.panicked, [.call_panicked "Called before ready"])

/-- A `Reconnect` driven by its owner. -/
def machine : Machine (State S B) (Event E Req) (Out E F B) where
  step s
    | .poll answer tick => pollStep recover newService s answer tick
    | .call req => call svc_call s req

/-- `Reconnect::new`: disconnected, with no backoff. -/
def init : State S B := .disconnected none

end Machine

/-! ### Reading a run's outputs -/

section Laws

variable {S B E F : Type}

/-- Whether the owner may call: the last thing that happened was a ready `poll_ready`. -/
def armStep (_ : Bool) : Out E F B → Bool
  | .returned r => r.isReady
  | _ => false

def armed (os : List (Out E F B)) : Bool :=
  os.foldl armStep false

/-- Whether a backoff element (or its end) came since the last new inner service; `none`
    before the first. -/
def tickStep : Option Bool → Out E F B → Option Bool
  | _, .newService => some false
  | since, .ticked _ => since.map fun _ => true
  | since, .backoff_ended _ => since.map fun _ => true
  | since, _ => since

def ticked (os : List (Out E F B)) : Option Bool :=
  os.foldl tickStep none

/-- The backoff stream of the current streak of failures: the one last waited for, until a
    connection is made or the stream ends. -/
def streakStep : Option B → Out E F B → Option B
  | _, .ticked b => some b
  | _, .backoff_ended _ => none
  | _, .returned .ready => none
  | streak, _ => streak

def streak (os : List (Out E F B)) : Option B :=
  os.foldl streakStep none

theorem armed_append_singleton (os : List (Out E F B)) (o : Out E F B) :
    armed (os ++ [o]) = armStep (armed os) o := by
  simp [armed]

theorem ticked_append_singleton (os : List (Out E F B)) (o : Out E F B) :
    ticked (os ++ [o]) = tickStep (ticked os) o := by
  simp [ticked]

theorem streak_append_singleton (os : List (Out E F B)) (o : Out E F B) :
    streak (os ++ [o]) = streakStep (streak os) o := by
  simp [streak]

/-- The contract's law of one output after the outputs `pre`: a poll never panics, and a call
    panics only when the owner was not allowed to call. -/
def ContractLaw (pre : List (Out E F B)) : Out E F B → Prop
  | .poll_panicked _ => False
  | .call_panicked msg => armed pre = false ∧ msg = "Called before ready"
  | _ => True

/-- The backoff's law of one output after the outputs `pre`: a new inner service other than the
    first waits for a backoff element since the last one, and a backoff element comes from the
    stream of the current streak, if there is one. -/
def BackoffLaw (pre : List (Out E F B)) : Out E F B → Prop
  | .newService => ticked pre ≠ some false
  | .ticked b => streak pre = none ∨ streak pre = some b
  | .backoff_ended b => streak pre = none ∨ streak pre = some b
  | _ => True

/-- The backoff a state holds against the current streak: the one it waits on, or a new one
    `recover` gave; a pending state holds the streak's own; a connected one, none. -/
def State.carries : State S B → Option B → Prop
  | .disconnected (some b), st => st = none ∨ st = some b
  | .disconnected none, st => st = none
  | .pending _ b, st => st = b
  | .connected _, st => st = none
  | .panicked, _ => True

end Laws

/-! ### One step -/

section Step

variable {S B E Req F : Type} (recover : E → Except E B) (newService : S)
  (svc_call : S → Req → F)

/-- **One step.**  What a step can do, by what it outputs: return with the state as it was (ready
    only when connected), connect, hand a failure to `recover` and disconnect with a backoff (the
    pending one's own if it had one), return the error `recover` gave back, make the first inner
    service, make another after the backoff stream yields or ends, do nothing once panicked, send
    a call on, or panic. -/
theorem step_cases (s : State S B) (e : Event E Req) :
    (∃ r, (machine recover newService svc_call).step s e = (s, [.returned r]) ∧
      (r.isReady = true → ∃ svc, s = .connected svc)) ∨
    (∃ svc b, s = .pending (some svc) b ∧
      (machine recover newService svc_call).step s e = (.connected svc, [.returned .ready])) ∨
    (∃ err b, (machine recover newService svc_call).step s e =
        (.disconnected (some b), [.recovered err]) ∧
      ((∃ svc, s = .connected svc) ∨ ∃ svc b₀, s = .pending (some svc) b₀ ∧ ∀ b', b₀ = some b' → b = b')) ∨
    (∃ err e', (machine recover newService svc_call).step s e =
        (s, [.recovered err, .returned (.failed e')]) ∧
      ((∃ svc, s = .connected svc) ∨ ∃ svc b, s = .pending (some svc) b)) ∨
    (s = .disconnected none ∧
      (machine recover newService svc_call).step s e = (.pending (some newService) none, [.newService])) ∨
    (∃ b, s = .disconnected (some b) ∧ (machine recover newService svc_call).step s e =
      (.pending (some newService) (some b), [.ticked b, .newService])) ∨
    (∃ b, s = .disconnected (some b) ∧ (machine recover newService svc_call).step s e =
      (.pending (some newService) none, [.backoff_ended b, .newService])) ∨
    (s = .panicked ∧ (machine recover newService svc_call).step s e = (.panicked, [])) ∨
    (∃ svc rsp, s = .connected svc ∧
      (machine recover newService svc_call).step s e = (s, [.called rsp])) ∨
    ((∀ svc, s ≠ .connected svc) ∧ s ≠ .panicked ∧
      (machine recover newService svc_call).step s e = (.panicked, [.call_panicked "Called before ready"])) ∨
    (∃ b msg, s = .pending none b ∧
      (machine recover newService svc_call).step s e = (.panicked, [.poll_panicked msg])) := by
  cases e with
  | call req =>
    cases s with
    | connected svc => exact .inr (.inr (.inr (.inr (.inr (.inr (.inr (.inr (.inl ⟨svc, _, rfl, rfl⟩))))))))
    | panicked => exact .inr (.inr (.inr (.inr (.inr (.inr (.inr (.inl ⟨rfl, rfl⟩)))))))
    | disconnected b =>
      exact .inr (.inr (.inr (.inr (.inr (.inr (.inr (.inr (.inr (.inl
        ⟨fun _ h => (by cases h), fun h => (by cases h), rfl⟩)))))))))
    | pending svc b =>
      exact .inr (.inr (.inr (.inr (.inr (.inr (.inr (.inr (.inr (.inl
        ⟨fun _ h => (by cases h), fun h => (by cases h), rfl⟩)))))))))
  | poll answer tick =>
    cases s with
    | connected svc =>
      cases answer with
      | ready => exact .inl ⟨.ready, rfl, fun _ => ⟨svc, rfl⟩⟩
      | pending => exact .inl ⟨.pending, rfl, fun h => (by cases h)⟩
      | failed err =>
        cases hr : recover err with
        | ok b =>
          exact .inr (.inr (.inl ⟨err, b, by simp [machine, pollStep, hr], .inl ⟨svc, rfl⟩⟩))
        | error e' =>
          exact .inr (.inr (.inr (.inl ⟨err, e', by simp [machine, pollStep, hr], .inl ⟨svc, rfl⟩⟩)))
    | pending svc b =>
      cases svc with
      | none => exact .inr (.inr (.inr (.inr (.inr (.inr (.inr (.inr (.inr (.inr ⟨b, _, rfl, rfl⟩)))))))))
      | some svc =>
        cases answer with
        | ready => exact .inr (.inl ⟨svc, b, rfl, rfl⟩)
        | pending => exact .inl ⟨.pending, rfl, fun h => (by cases h)⟩
        | failed err =>
          cases hr : recover err with
          | ok nb =>
            refine .inr (.inr (.inl ⟨err, b.getD nb, by simp [machine, pollStep, hr], ?_⟩))
            exact .inr ⟨svc, b, rfl, fun b' hb' => by simp [hb']⟩
          | error e' =>
            exact .inr (.inr (.inr (.inl ⟨err, e', by simp [machine, pollStep, hr],
              .inr ⟨svc, b, rfl⟩⟩)))
    | disconnected b =>
      cases b with
      | none => exact .inr (.inr (.inr (.inr (.inl ⟨rfl, rfl⟩))))
      | some b =>
        rcases tick with _ | _ | ⟨⟩
        · exact .inl ⟨.pending, rfl, fun h => (by cases h)⟩
        · exact .inr (.inr (.inr (.inr (.inr (.inr (.inl ⟨b, rfl, rfl⟩))))))
        · exact .inr (.inr (.inr (.inr (.inr (.inl ⟨b, rfl, rfl⟩)))))
    | panicked => exact .inr (.inr (.inr (.inr (.inr (.inr (.inr (.inl ⟨rfl, rfl⟩)))))))

/-! ### Runs -/

/-- What every run keeps: its outputs obey both laws; a pending state holds its new service; the
    owner may call only a connected service; no backoff is owed before the first inner service;
    and the backoff a state holds is the current streak's. -/
structure Live (os : List (Out E F B)) (s : State S B) : Prop where
  contract : TraceLaw ContractLaw os
  backoff : TraceLaw BackoffLaw os
  holds : ∀ svc b, s = .pending svc b → svc.isSome
  connected : armed os = true → ∃ svc, s = .connected svc
  first : s = .disconnected none → ticked os = none
  carries : s.carries (streak os)

theorem append_pair {α : Type} (os : List α) (x y : α) : os ++ [x, y] = os ++ [x] ++ [y] := by
  simp

/-- Every step keeps what a run keeps. -/
theorem Live.step {os : List (Out E F B)} {s : State S B} (h : Live os s) (e : Event E Req) :
    Live (os ++ ((machine recover newService svc_call).step s e).2)
      ((machine recover newService svc_call).step s e).1 := by
  rcases step_cases recover newService svc_call s e with
    ⟨r, hs, hr⟩ | ⟨svc, b, rfl, hs⟩ | ⟨err, b, hs, hfrom⟩ | ⟨err, e', hs, hfrom⟩ | ⟨rfl, hs⟩ |
      ⟨b, rfl, hs⟩ | ⟨b, rfl, hs⟩ | ⟨rfl, hs⟩ | ⟨svc, rsp, rfl, hs⟩ | ⟨hnc, hnp, hs⟩ |
      ⟨b, msg, rfl, hs⟩ <;>
    rw [hs]
  · -- a return, the state kept: a ready one comes from a connected service, which holds no backoff
    refine ⟨(trace_law_append_singleton _ _ _).mpr ⟨h.contract, trivial⟩,
      (trace_law_append_singleton _ _ _).mpr ⟨h.backoff, trivial⟩, h.holds, fun ha => hr ?_,
      fun hd => by rw [ticked_append_singleton, h.first hd]; rfl, ?_⟩
    · rwa [armed_append_singleton] at ha
    · rw [streak_append_singleton]
      cases r with
      | ready =>
        obtain ⟨svc, rfl⟩ := hr rfl
        rfl
      | failed e => exact h.carries
      | pending => exact h.carries
  · -- connected: the streak of failures ends
    refine ⟨(trace_law_append_singleton _ _ _).mpr ⟨h.contract, trivial⟩,
      (trace_law_append_singleton _ _ _).mpr ⟨h.backoff, trivial⟩, fun _ _ hp => (by cases hp),
      fun _ => ⟨svc, rfl⟩, fun hd => (by cases hd), by rw [streak_append_singleton]; rfl⟩
  · -- a failure handed to `recover`: a pending service keeps the streak's backoff
    refine ⟨(trace_law_append_singleton _ _ _).mpr ⟨h.contract, trivial⟩,
      (trace_law_append_singleton _ _ _).mpr ⟨h.backoff, trivial⟩, fun _ _ hp => (by cases hp),
      fun ha => (by rw [armed_append_singleton] at ha; cases ha), fun hd => (by cases hd), ?_⟩
    show (State.disconnected (some b)).carries (streak (os ++ [Out.recovered err]))
    rw [streak_append_singleton]
    show streak os = none ∨ streak os = some b
    rcases hfrom with ⟨svc, rfl⟩ | ⟨svc, b₀, rfl, hb₀⟩
    · exact .inl h.carries
    · have hst : streak os = b₀ := h.carries
      cases b₀ with
      | none => exact .inl hst
      | some b' => exact .inr (hst.trans (congrArg some (hb₀ b' rfl).symm))
  · -- `recover` refused: its error returned, the state kept
    have hnd : s ≠ .disconnected none := by
      rcases hfrom with ⟨svc, rfl⟩ | ⟨svc, b, rfl⟩ <;> exact fun hd => (by cases hd)
    rw [append_pair]
    refine ⟨?_, ?_, h.holds, fun ha => (by rw [armed_append_singleton] at ha; cases ha),
      fun hd => absurd hd hnd, ?_⟩
    · exact (trace_law_append_singleton _ _ _).mpr
        ⟨(trace_law_append_singleton _ _ _).mpr ⟨h.contract, trivial⟩, trivial⟩
    · exact (trace_law_append_singleton _ _ _).mpr
        ⟨(trace_law_append_singleton _ _ _).mpr ⟨h.backoff, trivial⟩, trivial⟩
    · rw [streak_append_singleton, streak_append_singleton]
      exact h.carries
  · -- the first inner service, owed no backoff
    refine ⟨(trace_law_append_singleton _ _ _).mpr ⟨h.contract, trivial⟩,
      (trace_law_append_singleton _ _ _).mpr ⟨h.backoff, ?_⟩, fun _ _ hp => ?_,
      fun ha => (by rw [armed_append_singleton] at ha; cases ha), fun hd => (by cases hd), ?_⟩
    · show ticked os ≠ some false
      rw [h.first rfl]
      exact fun hn => (by cases hn)
    · cases hp
      rfl
    · show (State.pending (some newService) none).carries (streak (os ++ [Out.newService]))
      rw [streak_append_singleton]
      exact h.carries
  · -- another inner service after a backoff element, from the streak's stream
    rw [append_pair]
    refine ⟨?_, ?_, fun _ _ hp => ?_,
      fun ha => (by rw [armed_append_singleton] at ha; cases ha), fun hd => (by cases hd), ?_⟩
    · exact (trace_law_append_singleton _ _ _).mpr
        ⟨(trace_law_append_singleton _ _ _).mpr ⟨h.contract, trivial⟩, trivial⟩
    · refine (trace_law_append_singleton _ _ _).mpr
        ⟨(trace_law_append_singleton _ _ _).mpr ⟨h.backoff, h.carries⟩, ?_⟩
      show ticked (os ++ [Out.ticked b]) ≠ some false
      rw [ticked_append_singleton]
      cases ticked os <;> exact fun hn => (by cases hn)
    · cases hp
      rfl
    · show streak (os ++ [Out.ticked b] ++ [Out.newService]) = some b
      rw [streak_append_singleton, streak_append_singleton]
      rfl
  · -- another inner service after the backoff stream ended, which ends the streak
    rw [append_pair]
    refine ⟨?_, ?_, fun _ _ hp => ?_,
      fun ha => (by rw [armed_append_singleton] at ha; cases ha), fun hd => (by cases hd), ?_⟩
    · exact (trace_law_append_singleton _ _ _).mpr
        ⟨(trace_law_append_singleton _ _ _).mpr ⟨h.contract, trivial⟩, trivial⟩
    · refine (trace_law_append_singleton _ _ _).mpr
        ⟨(trace_law_append_singleton _ _ _).mpr ⟨h.backoff, h.carries⟩, ?_⟩
      show ticked (os ++ [Out.backoff_ended b]) ≠ some false
      rw [ticked_append_singleton]
      cases ticked os <;> exact fun hn => (by cases hn)
    · cases hp
      rfl
    · show streak (os ++ [Out.backoff_ended b] ++ [Out.newService]) = none
      rw [streak_append_singleton, streak_append_singleton]
      rfl
  · -- a panicked service does nothing more
    simpa using h
  · -- a call sent on to the connected service
    refine ⟨(trace_law_append_singleton _ _ _).mpr ⟨h.contract, trivial⟩,
      (trace_law_append_singleton _ _ _).mpr ⟨h.backoff, trivial⟩, h.holds,
      fun ha => (by rw [armed_append_singleton] at ha; cases ha), fun hd => (by cases hd), ?_⟩
    rw [streak_append_singleton]
    exact h.carries
  · -- a call before ready: the owner was not allowed to call, since nothing is connected
    have harmed : armed os = false := by
      cases ha : armed os
      · rfl
      · obtain ⟨svc, hsvc⟩ := h.connected ha
        exact absurd hsvc (hnc svc)
    refine ⟨(trace_law_append_singleton _ _ _).mpr ⟨h.contract, harmed, rfl⟩,
      (trace_law_append_singleton _ _ _).mpr ⟨h.backoff, trivial⟩, fun _ _ hp => (by cases hp),
      fun ha => (by rw [armed_append_singleton] at ha; cases ha), fun hd => (by cases hd),
      trivial⟩
  · -- a pending state always holds its service
    exact absurd (h.holds none b rfl) (by simp)

/-- The initial state, before anything happened. -/
theorem Live.initial : Live ([] : List (Out E F B)) (init : State S B) :=
  ⟨trace_law_nil _, trace_law_nil _, fun _ _ hp => (by cases hp), fun ha => (by cases ha),
    fun _ => rfl, rfl⟩

/-- Every run from `Reconnect::new` keeps what a run keeps. -/
theorem Live.run (events : List (Event E Req)) :
    Live ((machine recover newService svc_call).run init events).2
      ((machine recover newService svc_call).run init events).1 := by
  simpa using run_trace_invariant (machine recover newService svc_call) (fun _ => True) Live
    (fun _ _ e _ h => h.step recover newService svc_call e) events [] init
    (fun _ _ => trivial) Live.initial

/-- **The contract of `Reconnect`.**  Over every run from `Reconnect::new`, whatever the inner
    services and the backoff streams yield and `recover` answers: `poll_ready` never panics, and
    `call` panics only when the last thing that happened was not a `poll_ready` returning ready,
    because no service is connected.  So an owner that calls only after a ready poll never sees
    a panic. -/
theorem reconnect_contract (events : List (Event E Req)) :
    TraceLaw ContractLaw ((machine recover newService svc_call).run init events).2 :=
  (Live.run recover newService svc_call events).contract

/-- **Backing off.**  Over every run from `Reconnect::new`: every inner service but the first
    is made only after the backoff stream yielded an element, or ended, since the last one was
    made; and every element waited for between two connections comes from one backoff stream
    until that stream ends, so failed connections do not reset the backoff. -/
theorem reconnect_backoff (events : List (Event E Req)) :
    TraceLaw BackoffLaw ((machine recover newService svc_call).run init events).2 :=
  (Live.run recover newService svc_call events).backoff

end Step

end LinkerdProxy.Reconnect
