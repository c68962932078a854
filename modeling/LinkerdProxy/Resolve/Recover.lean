import LinkerdProxy.Lib.Machine
import Mathlib.Data.List.Induction
import Mathlib.Logic.Function.Basic

namespace LinkerdProxy.Resolve

open Machine (TraceLaw trace_law_append trace_law_cons)

/-!
# Recovering resolutions (`proxy::resolve::recover`)

A `recover::Resolution` keeps a discovery resolution alive across failures.  It is a state
machine over `Disconnected`, `Connecting`, `Connected`, `Recover` and `Backoff`: a failed
connection, a failed inner stream and the end of an inner stream are handed to `recover`, whose
error ends the resolution and whose backoff stream is waited on, one element before each new
connection.  A backoff is carried from one failed connection to the next and dropped once a
connection succeeds.  The consumer never sees a reconnection: the first update of a new inner
stream is sent as a `Reset` (an `Add` rewritten, leading `Remove`s dropped), so the consumer's
view follows the live stream.

The inner future and streams are given by what they yield when the resolution waits on them;
the backoff streams are handles of a type `B`.  The resolution's observable behaviour is its
output: the calls to `resolve` and to `recover`, the updates and the error it yields, and its
panics.

* `step_cases` — what one poll can do; the invariants below are each proved from it;
* `Fresh.step` — the first update after each new connection is a `Reset` or `DoesNotExist`;
* `Converged.step`, `tracked_run` — once the current inner stream has sent an update that is
  not a `Remove`, the view the consumer folded from everything it received is the view of that
  stream's updates alone;
* `recover_iff_failure`, `resolve_iff`, `Safe.step` — `recover` is called on exactly the
  failures, a connection is made after exactly one poll of a backoff, and a panic comes only
  after `recover` refused, after which nothing but that panic is ever output;
* `recover_law` — all of it, for every run.
-/

/-! ### Updates and the view they build -/

/-- `Update`. -/
inductive Update (α β : Type) where
  | reset (eps : List (α × β))
  | add (eps : List (α × β))
  | remove (addrs : List α)
  | does_not_exist
  deriving DecidableEq, Repr

namespace Update

variable {α β : Type}

def isRemove : Update α β → Bool
  | .remove _ => true
  | _ => false

/-- A `Reset` or a `DoesNotExist`: an update that says the whole view. -/
def isWhole : Update α β → Bool
  | .reset _ => true
  | .does_not_exist => true
  | _ => false

/-- How the first update of a stream is sent: an `Add` as a `Reset`. -/
def initial : Update α β → Update α β
  | .add eps => .reset eps
  | up => up

theorem is_whole_initial {u : Update α β} (h : u.isRemove = false) :
    u.initial.isWhole = true := by
  cases u with
  | remove addrs => cases h
  | _ => rfl

end Update

/-- An endpoint view: the metadata of each address it holds. -/
abbrev View (α β : Type) := α → Option β

section View

variable {α β : Type} [DecidableEq α]

/-- Each endpoint put in the view in turn, a later one overwriting an earlier. -/
def insertAll (eps : List (α × β)) (v : View α β) : View α β :=
  eps.foldl (fun v p => Function.update v p.1 (some p.2)) v

/-- The meaning of an update for a view: `Reset(e)` is the view of `e` alone, `Add(e)` puts
    `e` in, `Remove(a)` takes `a` out, `DoesNotExist` empties it. -/
def Update.apply : Update α β → View α β → View α β
  | .reset eps, _ => insertAll eps fun _ => none
  | .add eps, v => insertAll eps v
  | .remove addrs, v => fun a => if a ∈ addrs then none else v a
  | .does_not_exist, _ => fun _ => none

/-- The view a list of updates builds from the empty one. -/
def fold (us : List (Update α β)) : View α β :=
  us.foldl (fun v u => u.apply v) fun _ => none

theorem fold_append_singleton (us : List (Update α β)) (u : Update α β) :
    fold (us ++ [u]) = u.apply (fold us) := by
  simp only [fold, List.foldl_append, List.foldl_cons, List.foldl_nil]

/-- Sent as a first update, an update that is not a `Remove` gives, whatever the view, the view
    it gives the empty one. -/
theorem apply_initial {u : Update α β} (h : u.isRemove = false) (v : View α β) :
    u.initial.apply v = u.apply fun _ => none := by
  cases u with
  | remove addrs => cases h
  | _ => rfl

/-- `Remove`s leave the empty view empty. -/
theorem fold_of_all_remove {us : List (Update α β)} (h : us.all Update.isRemove = true) :
    fold us = fun _ => none := by
  induction us using List.reverseRecOn with
  | nil => rfl
  | append_singleton us u ih =>
    simp only [List.all_append, List.all_cons, List.all_nil, Bool.and_true,
      Bool.and_eq_true] at h
    rw [fold_append_singleton, ih h.1]
    cases u with
    | remove addrs =>
      funext a
      simp [Update.apply]
    | _ => cases h.2

end View

/-! ### The resolution -/

/-- `State`, without the future and the streams it holds: what they yield is the machine's
    input.  `panicked` is the state after a panic. -/
inductive State (ε B : Type) where
  | disconnected (backoff : Option B)
  | connecting (backoff : Option B)
  | connected (is_initial : Bool)
  | recover (error : Option ε) (backoff : Option B)
  | backoff (backoff : Option B)
  | panicked

/-- What each thing the resolution may wait on yields at a poll: the connection, the inner
    stream, the backoff stream.  A state reads the one it waits on. -/
structure Event (ε α β : Type) where
  connect : Except ε Unit
  next : Option (Except ε (Update α β))
  tick : Option Unit

/-- What the resolution does that can be seen: a call to `resolve`, a call to `recover`, an update
    or an error yielded, a panic. -/
inductive Out (ε α β : Type) where
  | resolve
  | recover (error : ε)
  | item (update : Update α β)
  | error (error : ε)
  | panic (msg : String)

namespace Out

variable {ε α β : Type}

def update? : Out ε α β → Option (Update α β)
  | .item u => some u
  | _ => none

def isResolve : Out ε α β → Bool
  | .resolve => true
  | _ => false

end Out

section Machine

variable {ε α β B : Type} (recover : ε → Except ε B) (eos : ε)

/-- `poll_connected` from `Disconnected`: a new connection, with the backoff carried. -/
def reconnect (backoff : Option B) : State ε B × List (Out ε α β) :=
  (.connecting backoff, [.resolve])

/-- `poll_connected` from `Recover`: the error taken and handed to `recover`, whose error is
    yielded (`?`) and leaves the state without an error, and whose backoff is waited on unless
    one is carried. -/
def recovering (error : Option ε) (backoff : Option B) : State ε B × List (Out ε α β) :=
  match error with
  | none => (.panicked, [.panic "illegal state"])
  | some err =>
    match recover err with
    | .error e => (.recover none backoff, [.recover err, .error e])
    | .ok new_backoff => (.backoff (backoff.or (some new_backoff)), [.recover err])

/-- One poll of the resolution: `poll_next` in `Connected`, else `poll_connected`. -/
def step (s : State ε B) (e : Event ε α β) : State ε B × List (Out ε α β) :=
  match s with
  | .disconnected backoff => reconnect backoff
  | .connecting backoff =>
    match e.connect with
    | .ok () => (.connected true, [])
    | .error err => recovering recover (some err) backoff
  | .connected is_initial =>
    match e.next with
    | some (.ok update) =>
      -- a `Remove` before the first update is dropped (a `debug_assert!` in debug builds)
      if is_initial && update.isRemove then (.connected true, [])
      else (.connected false, [.item (if is_initial then update.initial else update)])
    | some (.error err) => recovering recover (some err) none
    | none => recovering recover (some eos) none
  | .recover error backoff => recovering recover error backoff
  -- the backoff yields, or ends and is dropped
  | .backoff (some b) => reconnect (if e.tick.isSome then some b else none)
  -- `expect("illegal state")`
  | .backoff none => (.panicked, [.panic "illegal state"])
  | .panicked => (.panicked, [])

def machine : Machine (State ε B) (Event ε α β) (Out ε α β) := ⟨step recover eos⟩

/-- `Resolve::call`: the resolution requested, with no backoff yet. -/
def init : State ε B := .connecting none

end Machine

/-! ### Calls to `recover` and to `resolve` -/

section Calls

variable {ε α β B : Type} (recover : ε → Except ε B) (eos : ε)

/-- The error a poll hands to `recover`: that of a failed connection or a failed inner stream,
    the end of the inner stream (`Eos`), or the error a `Recover` state holds. -/
def failure (s : State ε B) (e : Event ε α β) : Option ε :=
  match s with
  | .connecting _ =>
    match e.connect with
    | .error err => some err
    | .ok () => none
  | .connected _ =>
    match e.next with
    | some (.error err) => some err
    | none => some eos
    | some (.ok _) => none
  | .recover error _ => error
  | _ => none

/-- **One poll.**  What a poll can do, by what the resolution waited on: request a connection,
    connect, drop a leading `Remove`, yield an update, hand a failure (or the refusal a
    `Recover` state keeps) to `recovering`, or panic. -/
theorem step_cases (s : State ε B) (e : Event ε α β) :
    (∃ b, ((∃ b₀, s = .disconnected b₀) ∨ ∃ b₀, s = .backoff (some b₀)) ∧
      step recover eos s e = reconnect b) ∨
    (∃ b, s = .connecting b ∧ e.connect = .ok () ∧
      step recover eos s e = (.connected true, [])) ∨
    (∃ u, s = .connected true ∧ e.next = some (.ok u) ∧ u.isRemove = true ∧
      step recover eos s e = (.connected true, [])) ∨
    (∃ i u, s = .connected i ∧ e.next = some (.ok u) ∧ (i && u.isRemove) = false ∧
      step recover eos s e = (.connected false, [.item (if i then u.initial else u)])) ∨
    (∃ b, step recover eos s e = recovering recover (failure eos s e) b ∧
      (failure eos s e = none → s = .recover none b)) ∨
    (s = .backoff none ∧ step recover eos s e = (.panicked, [.panic "illegal state"])) ∨
    (s = .panicked ∧ step recover eos s e = (.panicked, [])) := by
  cases s with
  | disconnected b => exact .inl ⟨b, .inl ⟨b, rfl⟩, rfl⟩
  | connecting b =>
    cases hc : e.connect with
    | ok u => exact .inr (.inl ⟨b, rfl, rfl, by simp [step, hc]⟩)
    | error err =>
      refine .inr (.inr (.inr (.inr (.inl ⟨b, ?_, fun h => ?_⟩))))
      · simp [step, failure, hc]
      · simp [failure, hc] at h
  | connected i =>
    rcases hn : e.next with _ | (err | u)
    · exact .inr (.inr (.inr (.inr (.inl ⟨none, by simp [step, failure, hn],
        fun h => by simp [failure, hn] at h⟩))))
    · exact .inr (.inr (.inr (.inr (.inl ⟨none, by simp [step, failure, hn],
        fun h => by simp [failure, hn] at h⟩))))
    · by_cases hdrop : (i && u.isRemove) = true
      · obtain ⟨rfl, hu⟩ := (Bool.and_eq_true _ _).mp hdrop
        exact .inr (.inr (.inl ⟨u, rfl, rfl, hu, by simp [step, hn, hu]⟩))
      · refine .inr (.inr (.inr (.inl ⟨i, u, rfl, rfl, by simpa using hdrop, ?_⟩)))
        simp only [step, hn]
        rw [if_neg hdrop]
  | recover error b =>
    refine .inr (.inr (.inr (.inr (.inl ⟨b, rfl, fun h => ?_⟩))))
    simp only [failure] at h
    rw [h]
  | backoff b =>
    cases b with
    | none => exact .inr (.inr (.inr (.inr (.inr (.inl ⟨rfl, rfl⟩)))))
    | some b => exact .inl ⟨_, .inr ⟨b, rfl⟩, rfl⟩
  | panicked => exact .inr (.inr (.inr (.inr (.inr (.inr ⟨rfl, rfl⟩)))))

/-- A refusal's state brings no failure. -/
theorem failure_of_refused {s : State ε B} (hs : (∃ b, s = .recover none b) ∨ s = .panicked)
    (e : Event ε α β) : failure eos s e = none := by
  rcases hs with ⟨b, rfl⟩ | rfl <;> rfl

theorem recover_mem_recovering {error : Option ε} {backoff : Option B} {err : ε} :
    (.recover err : Out ε α β) ∈ (recovering recover error backoff).2 ↔
      error = some err := by
  cases error with
  | none => simp [recovering]
  | some x =>
    cases h : recover x <;> simp [recovering, h, eq_comm]

theorem resolve_not_mem_recovering (error : Option ε) (backoff : Option B) :
    (.resolve : Out ε α β) ∉ (recovering recover error backoff).2 := by
  cases error with
  | none => simp [recovering]
  | some x => cases h : recover x <;> simp [recovering, h]

/-- **Recovery.**  A poll calls `recover` exactly on the failure it brings, and with it. -/
theorem recover_iff_failure (s : State ε B) (e : Event ε α β) (err : ε) :
    .recover err ∈ (step recover eos s e).2 ↔ failure eos s e = some err := by
  cases s with
  | connecting b =>
    cases h : e.connect with
    | ok u => simp [step, failure, h]
    | error x =>
      simp only [step, failure, h]
      exact recover_mem_recovering recover
  | connected i =>
    rcases h : e.next with _ | (x | u)
    · simp only [step, failure, h]
      exact recover_mem_recovering recover
    · simp only [step, failure, h]
      exact recover_mem_recovering recover
    · simp only [step, failure, h]
      split <;> simp
  | recover error b => exact recover_mem_recovering recover
  | backoff b => cases b <;> simp [step, reconnect, failure]
  | disconnected b => simp [step, reconnect, failure]
  | panicked => simp [step, failure]

/-- **Reconnection.**  A poll calls `resolve` exactly from `Backoff`, after polling the backoff
    stream once (or from `Disconnected`, which no run rests in). -/
theorem resolve_iff (s : State ε B) (e : Event ε α β) :
    .resolve ∈ (step recover eos s e).2 ↔
      (∃ b, s = .backoff (some b)) ∨ ∃ b, s = .disconnected b := by
  cases s with
  | connecting b =>
    cases h : e.connect with
    | ok u => simp [step, h]
    | error x =>
      simp only [step, h]
      simpa using resolve_not_mem_recovering recover (some x) b
  | connected i =>
    rcases h : e.next with _ | (x | u)
    · simp only [step, h]
      simpa using resolve_not_mem_recovering recover (some eos) none
    · simp only [step, h]
      simpa using resolve_not_mem_recovering recover (some x) none
    · simp only [step, h]
      split <;> simp
  | recover error b => simpa [step] using resolve_not_mem_recovering recover error b
  | backoff b => cases b <;> simp [step, reconnect]
  | disconnected b => simp [step, reconnect]
  | panicked => simp [step]

end Calls

/-! ### A refusal ends the resolution -/

section Refusal

variable {ε α β B : Type} (recover : ε → Except ε B) (eos : ε)

/-- After `recover` refused, nothing but the panic of a poll; and a panic only after it
    refused. -/
def Refusal (pre : List (Out ε α β)) (x : Out ε α β) : Prop :=
  ((∃ err, .error err ∈ pre) → x = .panic "illegal state") ∧
    ∀ msg, x = .panic msg → ∃ err, .error err ∈ pre

/-- The states a run rests in, against its outputs: never `Disconnected` or a `Recover` that
    holds an error, never a `Backoff` without a backoff, and in the state `recover` refusal
    leaves exactly when it refused. -/
structure Safe (os : List (Out ε α β)) (s : State ε B) : Prop where
  settled : ∀ b, s ≠ .disconnected b
  taken : ∀ err b, s ≠ .recover (some err) b
  held : s ≠ .backoff none
  refused : ((∃ b, s = .recover none b) ∨ s = .panicked) ↔ ∃ err, .error err ∈ os
  law : TraceLaw Refusal os

theorem refusal_of_clean {pre : List (Out ε α β)} {x : Out ε α β}
    (hpre : ¬∃ err, .error err ∈ pre) (hx : ∀ msg, x ≠ .panic msg) : Refusal pre x :=
  ⟨fun h => absurd h hpre, fun msg h => absurd h (hx msg)⟩

theorem not_error_mem_append {os new : List (Out ε α β)} (hos : ¬∃ err, .error err ∈ os)
    (hnew : ∀ err, .error err ∉ new) : ¬∃ err, .error err ∈ os ++ new := by
  rintro ⟨err, h⟩
  rcases List.mem_append.mp h with h | h
  · exact hos ⟨err, h⟩
  · exact hnew err h

/-- A poll from a state that `recover` has not refused, which outputs neither an error nor a
    panic and rests connecting, connected or backing off, keeps `Safe`. -/
theorem Safe.clean {os new : List (Out ε α β)} {s s' : State ε B} (h : Safe os s)
    (hs : ¬((∃ b, s = .recover none b) ∨ s = .panicked))
    (hs' : (∃ b, s' = .connecting b) ∨ (∃ i, s' = .connected i) ∨
      ∃ b, s' = .backoff (some b))
    (herr : ∀ err, .error err ∉ new) (hpanic : ∀ msg, .panic msg ∉ new) :
    Safe (os ++ new) s' := by
  have hos : ¬∃ err, .error err ∈ os := fun he => hs (h.refused.mpr he)
  have hrest : (∀ b, s' ≠ .disconnected b) ∧ (∀ err b, s' ≠ .recover (some err) b) ∧
      s' ≠ .backoff none ∧ ¬((∃ b, s' = .recover none b) ∨ s' = .panicked) := by
    rcases hs' with ⟨b, rfl⟩ | ⟨i, rfl⟩ | ⟨b, rfl⟩ <;> simp
  obtain ⟨hsettled, htaken, hheld, hs''⟩ := hrest
  refine ⟨hsettled, htaken, hheld, ⟨fun h' => absurd h' hs'', fun he => ?_⟩, ?_⟩
  · exact absurd he (not_error_mem_append hos herr)
  · rw [trace_law_append]
    -- nothing new is a panic, and nothing before it is an error
    refine ⟨h.law, fun pre x post hnew => refusal_of_clean ?_ ?_⟩
    · refine not_error_mem_append hos fun err he => herr err ?_
      rw [hnew]
      exact List.mem_append_left _ he
    · intro msg hm
      apply hpanic msg
      rw [hnew, ← hm]
      simp

/-- `poll_connected` from `Recover` with an error, in a run `recover` has not refused. -/
theorem Safe.recovering {os : List (Out ε α β)} {s : State ε B} (h : Safe os s)
    (hs : ¬((∃ b, s = .recover none b) ∨ s = .panicked)) (err : ε) (backoff : Option B) :
    Safe (os ++ (recovering recover (some err) backoff : State ε B × List (Out ε α β)).2)
      (recovering recover (some err) backoff : State ε B × List (Out ε α β)).1 := by
  have hos : ¬∃ err, .error err ∈ os := fun he => hs (h.refused.mpr he)
  cases hr : recover err with
  | error x =>
    -- refused: the error is yielded, and the state is the one a refusal leaves
    simp only [Resolve.recovering, hr]
    refine ⟨fun _ h => (by cases h), fun _ _ h => (by cases h), fun h => (by cases h),
      ⟨fun _ => ⟨x, by simp⟩, fun _ => .inl ⟨backoff, rfl⟩⟩, ?_⟩
    rw [trace_law_append, trace_law_cons, trace_law_cons]
    refine ⟨h.law, refusal_of_clean (by simpa using hos) (fun _ h => by cases h),
      refusal_of_clean ?_ (fun _ h => by cases h), Machine.trace_law_nil _⟩
    exact not_error_mem_append hos (by simp)
  | ok nb =>
    simp only [Resolve.recovering, hr]
    refine h.clean hs (.inr (.inr ?_)) (by simp) (by simp)
    cases backoff <;> simp

/-- **Refusal.**  Every poll keeps `Safe`. -/
theorem Safe.step {os : List (Out ε α β)} {s : State ε B} (h : Safe os s) (e : Event ε α β) :
    Safe (os ++ (step recover eos s e).2) (step recover eos s e).1 := by
  rcases step_cases recover eos s e with ⟨b, hs, heq⟩ | ⟨b, rfl, -, heq⟩ |
    ⟨u, rfl, -, -, heq⟩ | ⟨i, u, rfl, -, -, heq⟩ | ⟨b, heq, hnone⟩ | ⟨rfl, heq⟩ |
    ⟨rfl, heq⟩ <;> rw [heq]
  · rcases hs with ⟨b₀, rfl⟩ | ⟨b₀, rfl⟩
    · exact absurd rfl (h.settled b₀)
    · exact h.clean (by simp) (.inl ⟨b, rfl⟩) (by simp [reconnect]) (by simp [reconnect])
  · exact h.clean (by simp) (.inr (.inl ⟨true, rfl⟩)) (by simp) (by simp)
  · exact h.clean (by simp) (.inr (.inl ⟨true, rfl⟩)) (by simp) (by simp)
  · exact h.clean (by simp) (.inr (.inl ⟨false, rfl⟩)) (by simp) (by simp)
  · cases hf : failure eos s e with
    | some err =>
      have hs : ¬((∃ b, s = .recover none b) ∨ s = .panicked) := fun hr => by
        rw [failure_of_refused eos hr e] at hf
        cases hf
      exact h.recovering recover hs err b
    | none =>
      -- polled again after a refusal: the panic
      obtain rfl := hnone hf
      have he : ∃ err, .error err ∈ os := h.refused.mp (.inl ⟨b, rfl⟩)
      simp only [Resolve.recovering]
      refine ⟨fun _ h => (by cases h), fun _ _ h => (by cases h), fun h => (by cases h),
        ⟨fun _ => he.imp fun _ hx => List.mem_append_left _ hx, fun _ => .inr rfl⟩, ?_⟩
      rw [trace_law_append, trace_law_cons]
      exact ⟨h.law, ⟨fun _ => rfl, fun _ _ => by simpa using he⟩, Machine.trace_law_nil _⟩
  · exact absurd rfl h.held
  · rw [List.append_nil]
    exact h

theorem Safe.init : Safe ([] : List (Out ε α β)) (init : State ε B) :=
  ⟨fun _ h => (by cases h), fun _ _ h => (by cases h), fun h => (by cases h),
    by simp [Resolve.init],
    Machine.trace_law_nil _⟩

/-- Every run from `Resolve::call` is `Safe`. -/
theorem run_safe (es : List (Event ε α β)) :
    Safe ((machine recover eos).run init es).2 ((machine recover eos).run init es).1 := by
  simpa using Machine.run_trace_invariant (machine recover eos) (fun _ => True) Safe
    (fun os s e _ h => h.step recover eos e) es [] init (fun _ _ => trivial) Safe.init

end Refusal

/-! ### The first update after a connection -/

section Fresh

variable {ε α β B : Type} (recover : ε → Except ε B) (eos : ε)

/-- The outputs since the last call to `resolve`, latest first. -/
def sinceResolve (os : List (Out ε α β)) : List (Out ε α β) :=
  os.reverse.takeWhile fun o => !o.isResolve

/-- No update was yielded since the last call to `resolve`, or since the start. -/
def NoItemSince (os : List (Out ε α β)) : Prop := ∀ o ∈ sinceResolve os, o.update? = none

/-- The first update yielded since a call to `resolve` is a `Reset` or a `DoesNotExist`. -/
def FirstWhole (pre : List (Out ε α β)) (x : Out ε α β) : Prop :=
  NoItemSince pre → ∀ u, x = .item u → u.isWhole = true

/-- Outputs that are neither updates nor calls to `resolve`. -/
def Quiet (new : List (Out ε α β)) : Prop :=
  ∀ o ∈ new, o.isResolve = false ∧ o.update? = none

theorem noItemSince_append_resolve (os : List (Out ε α β)) :
    NoItemSince (os ++ [.resolve]) := by
  simp [NoItemSince, sinceResolve, Out.isResolve]

theorem not_noItemSince_append_item (os : List (Out ε α β)) (u : Update α β) :
    ¬NoItemSince (os ++ [.item u]) := by
  simp [NoItemSince, sinceResolve, Out.isResolve, Out.update?]

theorem quiet_recovering (error : Option ε) (backoff : Option B) :
    Quiet (recovering recover error backoff : State ε B × List (Out ε α β)).2 := by
  cases error with
  | none => simp [Quiet, recovering, Out.isResolve, Out.update?]
  | some x => cases h : recover x <;> simp [Quiet, recovering, h, Out.isResolve, Out.update?]

/-- `recover` leaves the resolution waiting on a backoff, refused, or panicked: never connecting
    or connected. -/
theorem recovering_fst (error : Option ε) (backoff : Option B) :
    (∀ b, (recovering recover error backoff : State ε B × List (Out ε α β)).1 ≠
        .connecting b) ∧
      ∀ i, (recovering recover error backoff : State ε B × List (Out ε α β)).1 ≠
        .connected i := by
  cases error with
  | none => exact ⟨fun _ h => (by cases h), fun _ h => (by cases h)⟩
  | some x =>
    cases h : recover x <;> exact ⟨fun _ h' => (by simp [recovering, h] at h'),
      fun _ h' => (by simp [recovering, h] at h')⟩

/-- The outputs since the last `resolve`, against the first update's law: while connecting, and
    while connected before the first update, nothing has been yielded since. -/
structure Fresh (os : List (Out ε α β)) (s : State ε B) : Prop where
  connecting : ∀ b, s = .connecting b → NoItemSince os
  initial : s = .connected true → NoItemSince os
  not_initial : s = .connected false → ¬NoItemSince os
  law : TraceLaw FirstWhole os

/-- Quiet outputs that leave the resolution neither connecting nor connected keep `Fresh`. -/
theorem Fresh.quiet {os new : List (Out ε α β)} {s s' : State ε B} (h : Fresh os s)
    (hnew : Quiet new) (hconnecting : ∀ b, s' ≠ .connecting b)
    (hconnected : ∀ i, s' ≠ .connected i) : Fresh (os ++ new) s' := by
  refine ⟨fun b hb => absurd hb (hconnecting b), fun hs => absurd hs (hconnected true),
    fun hs => absurd hs (hconnected false), ?_⟩
  rw [trace_law_append]
  refine ⟨h.law, fun pre x post hx _ u hu => ?_⟩
  have hq := (hnew x (by rw [hx]; simp)).2
  rw [hu] at hq
  cases hq

theorem Fresh.recovering {os : List (Out ε α β)} {s : State ε B} (h : Fresh os s)
    (error : Option ε) (backoff : Option B) :
    Fresh (os ++ (recovering recover error backoff : State ε B × List (Out ε α β)).2)
      (recovering recover error backoff : State ε B × List (Out ε α β)).1 :=
  h.quiet (quiet_recovering recover error backoff) (recovering_fst recover error backoff).1
    (recovering_fst recover error backoff).2

/-- A new connection: nothing yielded since the call to `resolve`. -/
theorem Fresh.reconnect {os : List (Out ε α β)} {s : State ε B} (h : Fresh os s)
    (backoff : Option B) :
    Fresh (os ++ (reconnect backoff : State ε B × List (Out ε α β)).2)
      (reconnect backoff : State ε B × List (Out ε α β)).1 := by
  refine ⟨fun _ _ => noItemSince_append_resolve os, fun h' => (by cases h'),
    fun h' => (by cases h'), ?_⟩
  rw [trace_law_append]
  simp only [Resolve.reconnect]
  rw [trace_law_cons]
  exact ⟨h.law, fun _ _ h' => (by cases h'), Machine.trace_law_nil _⟩

/-- **First updates.**  Every poll keeps `Fresh`: in particular the update yielded first after
    each connection is a `Reset` or a `DoesNotExist`. -/
theorem Fresh.step {os : List (Out ε α β)} {s : State ε B} (h : Fresh os s)
    (e : Event ε α β) :
    Fresh (os ++ (step recover eos s e).2) (step recover eos s e).1 := by
  rcases step_cases recover eos s e with ⟨b, -, heq⟩ | ⟨b, rfl, -, heq⟩ |
    ⟨u, rfl, -, -, heq⟩ | ⟨i, u, rfl, -, hkeep, heq⟩ | ⟨b, heq, -⟩ | ⟨rfl, heq⟩ |
    ⟨rfl, heq⟩ <;> rw [heq]
  · exact h.reconnect b
  · -- connected: nothing yielded since the call to `resolve`
    rw [List.append_nil]
    exact ⟨fun _ h' => (by cases h'), fun _ => h.connecting b rfl, fun h' => (by cases h'),
      h.law⟩
  · -- a leading `Remove`, dropped: still before the first update
    rw [List.append_nil]
    exact ⟨fun _ h' => (by cases h'), fun _ => h.initial rfl, fun h' => (by cases h'), h.law⟩
  · refine ⟨fun _ h' => (by cases h'), fun h' => (by cases h'),
      fun _ => not_noItemSince_append_item os _, ?_⟩
    rw [trace_law_append, trace_law_cons]
    refine ⟨h.law, fun hfresh u' hu' => ?_, Machine.trace_law_nil _⟩
    cases i with
    | false => exact absurd (by simpa using hfresh) (h.not_initial rfl)
    | true =>
      -- the first update: an `Add` sent as a `Reset`
      cases hu'
      exact Update.is_whole_initial (by simpa using hkeep)
  · exact h.recovering recover _ b
  · exact h.quiet (by simp [Quiet, Out.isResolve, Out.update?]) (fun _ h' => (by cases h'))
      (fun _ h' => (by cases h'))
  · exact h.quiet (by simp [Quiet]) (fun _ h' => (by cases h')) (fun _ h' => (by cases h'))

theorem Fresh.init : Fresh ([] : List (Out ε α β)) (init : State ε B) :=
  ⟨fun _ _ => by simp [NoItemSince, sinceResolve], fun h => (by cases h),
    fun h => (by cases h), Machine.trace_law_nil _⟩

/-- Every run from `Resolve::call` is `Fresh`. -/
theorem run_fresh (es : List (Event ε α β)) :
    Fresh ((machine recover eos).run init es).2 ((machine recover eos).run init es).1 := by
  simpa using Machine.run_trace_invariant (machine recover eos) (fun _ => True) Fresh
    (fun os s e _ h => h.step recover eos e) es [] init (fun _ _ => trivial) Fresh.init

end Fresh

/-! ### The consumer's view -/

section Converge

variable {ε α β B : Type} (recover : ε → Except ε B) (eos : ε)

/-- The updates the current inner stream has produced since it connected, after a poll. -/
def track (s : State ε B) (e : Event ε α β) (cur : List (Update α β)) : List (Update α β) :=
  match s with
  | .connecting _ =>
    match e.connect with
    | .ok () => []
    | .error _ => cur
  | .connected _ =>
    match e.next with
    | some (.ok u) => cur ++ [u]
    | _ => cur
  | _ => cur

/-- The resolution with, beside its state, the updates the current inner stream has produced
    since it connected. -/
def tracked : Machine (State ε B × List (Update α β)) (Event ε α β) (Out ε α β) :=
  ⟨fun p e => (((step recover eos p.1 e).1, track p.1 e p.2), (step recover eos p.1 e).2)⟩

/-- The tracked resolution runs as the resolution does. -/
theorem tracked_run (s : State ε B) (cur : List (Update α β)) (es : List (Event ε α β)) :
    ((tracked recover eos).run (s, cur) es).1.1 = ((machine recover eos).run s es).1 ∧
      ((tracked recover eos).run (s, cur) es).2 = ((machine recover eos).run s es).2 :=
  Machine.run_simulation (tracked recover eos) (machine recover eos) (fun _ => True)
    (fun p t => p.1 = t) (fun p t e _ h => by subst h; exact ⟨rfl, rfl⟩) es (s, cur) s
    (fun _ _ => trivial) rfl

/-- The updates the current inner stream has produced since it connected, after the polls `es`
    from the start. -/
def current (es : List (Event ε α β)) : List (Update α β) :=
  ((tracked recover eos).run (init, []) es).1.2

/-- The updates a consumer received. -/
def received (os : List (Out ε α β)) : List (Update α β) := os.filterMap Out.update?

variable [DecidableEq α]

/-- The consumer's view against the current inner stream: connected, the resolution is before
    its first update exactly while the stream has produced only `Remove`s, and after it the view
    the consumer folded is the view of that stream's updates. -/
structure Converged (os : List (Out ε α β)) (p : State ε B × List (Update α β)) : Prop where
  initial : ∀ i, p.1 = .connected i → i = p.2.all Update.isRemove
  view : p.1 = .connected false → fold (received os) = fold p.2

theorem Converged.of_not_connected {os : List (Out ε α β)}
    {p : State ε B × List (Update α β)}
    (h : ∀ i, p.1 ≠ .connected i) : Converged os p :=
  ⟨fun i hi => absurd hi (h i), fun hi => absurd hi (h false)⟩

/-- An update yielded: the consumer's view after it. -/
theorem fold_received_item (os : List (Out ε α β)) (u : Update α β) :
    fold (received (os ++ [.item u])) = u.apply (fold (received os)) := by
  simp only [received, List.filterMap_append, List.filterMap_cons, List.filterMap_nil,
    Out.update?]
  exact fold_append_singleton _ u

/-- **Convergence.**  Every poll keeps `Converged`. -/
theorem Converged.step {os : List (Out ε α β)} {p : State ε B × List (Update α β)}
    (h : Converged os p) (e : Event ε α β) :
    Converged (os ++ ((tracked recover eos).step p e).2) ((tracked recover eos).step p e).1 := by
  obtain ⟨s, cur⟩ := p
  show Converged (os ++ (Resolve.step recover eos s e).2)
    ((Resolve.step recover eos s e).1, track s e cur)
  rcases step_cases recover eos s e with ⟨b, -, heq⟩ | ⟨b, rfl, hc, heq⟩ |
    ⟨u, rfl, hn, hu, heq⟩ | ⟨i, u, rfl, hn, hkeep, heq⟩ | ⟨b, heq, -⟩ | ⟨rfl, heq⟩ |
    ⟨rfl, heq⟩ <;> rw [heq]
  · exact .of_not_connected fun _ h' => (by cases h')
  · -- a new connection: nothing produced yet
    simp only [track, hc]
    exact ⟨fun i hi => by cases hi; rfl, fun hi => by cases hi⟩
  · -- a leading `Remove`, dropped
    have hcur := h.initial true rfl
    simp only [track, hn]
    refine ⟨fun i' hi' => ?_, fun hi' => by cases hi'⟩
    cases hi'
    simp [← hcur, hu]
  · have hcur := h.initial i rfl
    simp only [track, hn]
    refine ⟨fun i' hi' => ?_, fun _ => ?_⟩
    · cases hi'
      rw [List.all_append, List.all_cons, List.all_nil, Bool.and_true, ← hcur]
      exact hkeep.symm
    · rw [fold_received_item, fold_append_singleton]
      cases i with
      | false => rw [if_neg (by simp), h.view rfl]
      | true =>
        -- the first update: the view it gives whatever the consumer held
        have hu : u.isRemove = false := by simpa using hkeep
        rw [if_pos rfl, apply_initial hu, fold_of_all_remove hcur.symm]
  · exact .of_not_connected (recovering_fst recover _ b).2
  · exact .of_not_connected fun _ h' => (by cases h')
  · exact .of_not_connected fun _ h' => (by cases h')

/-- Every run from `Resolve::call`, beside the updates of its current inner stream, is
    `Converged`. -/
theorem run_converged (es : List (Event ε α β)) :
    Converged ((machine recover eos).run init es).2
      (((machine recover eos).run init es).1, current recover eos es) := by
  have h := Machine.run_trace_invariant (tracked recover eos) (fun _ => True) Converged
    (fun os p e _ h => h.step recover eos e) es [] (init, []) (fun _ _ => trivial)
    (Converged.of_not_connected fun i hi => (by cases hi))
  obtain ⟨hs, hos⟩ := tracked_run recover eos init [] es
  rw [List.nil_append, hos] at h
  rw [← hs]
  exact h

/-- **Recovering resolutions.**  For every run from `Resolve::call`, whatever the connections,
    the inner streams and the backoffs yield:
    the first update yielded after each connection is a `Reset` or a `DoesNotExist`; connected,
    the resolution is past its first update exactly when the current inner stream has produced
    an update that is not a `Remove`, and then the view the consumer folded from everything it
    received is the view of that stream's updates alone; `recover` is called on exactly the
    failed connections, the failed streams and their ends; once `recover` refuses, its error is
    yielded and nothing but a panic ever follows, and nothing panics before; a connection is
    made exactly when a backoff has been polled; and a failed connection keeps the backoff it
    carried, the one `recover` gives being waited on only when none was. -/
theorem recover_law (es : List (Event ε α β)) :
    TraceLaw FirstWhole ((machine recover eos).run init es).2 ∧
      (∀ i, ((machine recover eos).run init es).1 = .connected i →
        i = (current recover eos es).all Update.isRemove ∧
        (i = false → fold (received ((machine recover eos).run init es).2) =
          fold (current recover eos es))) ∧
      (∀ (s : State ε B) (e : Event ε α β) err,
        .recover err ∈ (step recover eos s e).2 ↔ failure eos s e = some err) ∧
      TraceLaw Refusal ((machine recover eos).run init es).2 ∧
      (∀ e : Event ε α β,
        .resolve ∈ (step recover eos ((machine recover eos).run init es).1 e).2 ↔
        ∃ b, ((machine recover eos).run init es).1 = .backoff (some b)) ∧
      (∀ (b : Option B) (e : Event ε α β) err nb, e.connect = .error err →
        recover err = .ok nb →
        step recover eos (.connecting b) e = (.backoff (b.or (some nb)), [.recover err])) := by
  have hsafe := run_safe recover eos es
  have hconv := run_converged recover eos es
  refine ⟨(run_fresh recover eos es).law, fun i hi => ⟨hconv.initial i hi, ?_⟩,
    recover_iff_failure recover eos, hsafe.law, fun e => ?_, ?_⟩
  · rintro rfl
    exact hconv.view hi
  · -- no run rests in `Disconnected`
    rw [resolve_iff]
    exact ⟨fun h => h.resolve_right fun ⟨b, hb⟩ => hsafe.settled b hb, .inl⟩
  · intro b e err nb hc hr
    simp [step, hc, recovering, hr]

end Converge

end LinkerdProxy.Resolve
