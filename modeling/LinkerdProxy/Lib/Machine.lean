import Mathlib.Logic.Basic

namespace LinkerdProxy

/-!
# Deterministic machines driven by input events

A `Machine σ ι ο` consumes one input `ι` at a time, moves its state `σ` and emits the outputs
`ο` that step produced.  The asynchronous tasks of the proxy (circuit breakers, bodies polled
by clients, policy watchers) are modelled this way: every `select!` outcome or poll is one
input, and the externally visible effects of a step (gate transitions, frames) are its outputs.

* `Machine.run` — the final state and the concatenated outputs of a run over a list of inputs;
* `Machine.run_append` — runs compose along list concatenation;
* `Machine.run_invariant` — a state predicate preserved by every legal step holds after
  every legal run; `Machine.run_trace_invariant` — the same for a predicate that also reads the
  outputs emitted so far;
* `Machine.run_simulation` — two machines related by a simulation that emits equal outputs
  produce equal output traces on every legal run;
* `Machine.TraceLaw` — a law that every output of a trace satisfies given what came before it,
  with its rules for concatenation and mapping.
-/

/-- A deterministic machine with states `σ`, inputs `ι` and outputs `ο`. -/
structure Machine (σ ι ο : Type*) where
  /-- One step: the next state and the outputs emitted by the step. -/
  step : σ → ι → σ × List ο

namespace Machine

variable {σ τ ι ο : Type*}

/-- Feed a list of inputs; return the final state and every output in order. -/
def run (m : Machine σ ι ο) (s : σ) : List ι → σ × List ο
  | [] => (s, [])
  | e :: es =>
    let r := m.run (m.step s e).1 es
    (r.1, (m.step s e).2 ++ r.2)

@[simp] theorem run_nil (m : Machine σ ι ο) (s : σ) : m.run s [] = (s, []) := rfl

@[simp] theorem run_cons (m : Machine σ ι ο) (s : σ) (e : ι) (es : List ι) :
    m.run s (e :: es) =
      ((m.run (m.step s e).1 es).1, (m.step s e).2 ++ (m.run (m.step s e).1 es).2) :=
  rfl

/-- Running a concatenation runs the second list from where the first one stopped. -/
theorem run_append (m : Machine σ ι ο) (s : σ) (es fs : List ι) :
    m.run s (es ++ fs) =
      ((m.run (m.run s es).1 fs).1, (m.run s es).2 ++ (m.run (m.run s es).1 fs).2) := by
  induction es generalizing s with
  | nil => simp
  | cons e es ih => simp [ih]

/-! ### Invariants -/

section Invariant

variable (m : Machine σ ι ο) (legal : ι → Prop) (inv : σ → Prop)

/-- **Invariant rule.**  A predicate that every legal step preserves holds after every run
    whose inputs are all legal. -/
theorem run_invariant (hstep : ∀ s e, legal e → inv s → inv (m.step s e).1) :
    ∀ (es : List ι) (s : σ), (∀ e ∈ es, legal e) → inv s → inv (m.run s es).1 := by
  intro es
  induction es with
  | nil => intro s _ hs; exact hs
  | cons e es ih =>
    intro s hadm hs
    have he : legal e := hadm e (List.mem_cons_self ..)
    exact ih _ (fun f hf => hadm f (List.mem_cons_of_mem e hf)) (hstep s e he hs)

/-- **Trace invariant rule.**  A predicate of the state and of the outputs emitted so far that
    every legal step preserves holds after every legal run, counting the run's outputs. -/
theorem run_trace_invariant (tinv : List ο → σ → Prop)
    (hstep : ∀ os s e, legal e → tinv os s → tinv (os ++ (m.step s e).2) (m.step s e).1) :
    ∀ (es : List ι) (os : List ο) (s : σ), (∀ e ∈ es, legal e) → tinv os s →
      tinv (os ++ (m.run s es).2) (m.run s es).1 := by
  intro es
  induction es with
  | nil => intro os s _ hs; simpa using hs
  | cons e es ih =>
    intro os s hadm hs
    have he : legal e := hadm e (List.mem_cons_self ..)
    have h' := ih _ _ (fun f hf => hadm f (List.mem_cons_of_mem e hf)) (hstep os s e he hs)
    simpa [List.append_assoc] using h'

/-- A state is reachable from `init` when some legal run ends in it. -/
def Reachable (init : σ) (s : σ) : Prop :=
  ∃ es : List ι, (∀ e ∈ es, legal e) ∧ (m.run init es).1 = s

/-- Every reachable state satisfies an invariant that holds initially and is preserved. -/
theorem reachable_invariant {init : σ} (h0 : inv init)
    (hstep : ∀ s e, legal e → inv s → inv (m.step s e).1) {s : σ}
    (hs : m.Reachable legal init s) : inv s := by
  obtain ⟨es, hadm, rfl⟩ := hs
  exact run_invariant m legal inv hstep es init hadm h0

end Invariant

/-! ### Simulation -/

section Simulation

variable (m₁ : Machine σ ι ο) (m₂ : Machine τ ι ο) (legal : ι → Prop) (R : σ → τ → Prop)

/-- **Simulation rule.**  If every legal step takes `R`-related states to `R`-related states
    and both machines emit the same outputs, then runs from related states emit the same output
    trace and end related. -/
theorem run_simulation
    (hstep : ∀ s t e, legal e → R s t →
      R (m₁.step s e).1 (m₂.step t e).1 ∧ (m₁.step s e).2 = (m₂.step t e).2) :
    ∀ (es : List ι) (s : σ) (t : τ), (∀ e ∈ es, legal e) → R s t →
      R (m₁.run s es).1 (m₂.run t es).1 ∧ (m₁.run s es).2 = (m₂.run t es).2 := by
  intro es
  induction es with
  | nil => intro s t _ hR; exact ⟨hR, rfl⟩
  | cons e es ih =>
    intro s t hadm hR
    obtain ⟨hR', hout⟩ := hstep s t e (hadm e (List.mem_cons_self ..)) hR
    obtain ⟨hR'', hout'⟩ := ih _ _ (fun f hf => hadm f (List.mem_cons_of_mem e hf)) hR'
    simp only [run_cons]
    exact ⟨hR'', by rw [hout, hout']⟩

end Simulation

/-! ### Laws over traces -/

section TraceLaw

variable {ο : Type*} (P : List ο → ο → Prop)

/-- A law of a trace: `P pre x` holds of every output `x` and the part `pre` of the trace
    before it. -/
def TraceLaw (os : List ο) : Prop :=
  ∀ pre x post, os = pre ++ x :: post → P pre x

@[simp] theorem trace_law_nil : TraceLaw P [] := by
  intro pre x post h
  cases pre <;> cases h

theorem trace_law_cons (x : ο) (os : List ο) :
    TraceLaw P (x :: os) ↔ P [] x ∧ TraceLaw (fun pre y => P (x :: pre) y) os := by
  constructor
  · intro h
    exact ⟨h [] x os rfl, fun pre y post hos => h (x :: pre) y post (by simp [hos])⟩
  · rintro ⟨hx, hos⟩ pre y post h
    cases pre with
    | nil =>
      obtain ⟨rfl, rfl⟩ := List.cons.inj h
      exact hx
    | cons z pre =>
      obtain ⟨rfl, hrest⟩ : x = z ∧ os = pre ++ y :: post := by simpa using h
      exact hos pre y post hrest

/-- A law holds of a concatenation when it holds of the first part, and of the second part
    read after the first. -/
theorem trace_law_append (os ys : List ο) :
    TraceLaw P (os ++ ys) ↔ TraceLaw P os ∧ TraceLaw (fun pre y => P (os ++ pre) y) ys := by
  induction os generalizing P with
  | nil => simp
  | cons x os ih => simp [trace_law_cons, ih, and_assoc]

/-- A law holds of a trace grown by one output when it held before and the output keeps it. -/
theorem trace_law_append_singleton (os : List ο) (x : ο) :
    TraceLaw P (os ++ [x]) ↔ TraceLaw P os ∧ P os x := by
  rw [trace_law_append, trace_law_cons, List.append_nil]
  simp

theorem trace_law_map {α : Type*} (f : α → ο) (xs : List α) :
    TraceLaw P (xs.map f) ↔ TraceLaw (fun pre x => P (pre.map f) (f x)) xs := by
  induction xs generalizing P with
  | nil => simp
  | cons x xs ih => simp [trace_law_cons, ih]

variable {P}

/-- Outputs that satisfy a law whatever came before them keep it. -/
theorem TraceLaw.of_forall {os : List ο} (h : ∀ x ∈ os, ∀ pre, P pre x) : TraceLaw P os :=
  fun pre x post hos => h x (by simp [hos]) pre

/-- A law that implies another gives it on every trace. -/
theorem TraceLaw.mono {Q : List ο → ο → Prop} (hPQ : ∀ pre x, P pre x → Q pre x) {os : List ο}
    (h : TraceLaw P os) : TraceLaw Q os :=
  fun pre x post hos => hPQ pre x (h pre x post hos)

end TraceLaw

end Machine

end LinkerdProxy
