import Mathlib.Logic.Basic

namespace LinkerdProxy

/-!
# Fuel-bounded `while` loops

A loop `while cond(s) { s = body(s) }` of the source, whose body may panic, runs here for at
most `fuel` passes; `none` is a panic or the fuel running out.  Two rules settle such a loop:

* `whileLoop_variant` — an invariant the body keeps while it decreases a measure gives, for any
  fuel beyond the measure, a final state that satisfies the invariant and fails the condition:
  the loop terminates;
* `whileLoop_stuck` — a body that leaves a state where the condition holds as it is never lets
  the loop return, whatever the fuel.
-/

variable {σ : Type*}

/-- `while cond(s) { s = body(s)? }`, for at most `fuel` passes. -/
def whileLoop (cond : σ → Bool) (body : σ → Option σ) : Nat → σ → Option σ
  | 0, _ => none
  | fuel + 1, s => if cond s then (body s).bind (whileLoop cond body fuel) else some s

section Rules

variable (cond : σ → Bool) (body : σ → Option σ)

@[simp] theorem whileLoop_zero (s : σ) : whileLoop cond body 0 s = none := rfl

theorem whileLoop_succ_of_cond {s : σ} (h : cond s = true) (fuel : Nat) :
    whileLoop cond body (fuel + 1) s = (body s).bind (whileLoop cond body fuel) := by
  rw [whileLoop, if_pos h]

theorem whileLoop_succ_of_not_cond {s : σ} (h : cond s = false) (fuel : Nat) :
    whileLoop cond body (fuel + 1) s = some s := by
  rw [whileLoop, if_neg (by simp [h])]

/-- **Variant rule.**  If from every state of the invariant where the condition holds the body
    returns a state of the invariant with a smaller measure, then with more fuel than the
    measure the loop returns a state of the invariant where the condition fails. -/
theorem whileLoop_variant (inv : σ → Prop) (μ : σ → Nat)
    (hstep : ∀ s, inv s → cond s = true → ∃ s', body s = some s' ∧ inv s' ∧ μ s' < μ s) :
    ∀ (fuel : Nat) (s : σ), inv s → μ s < fuel →
      ∃ t, whileLoop cond body fuel s = some t ∧ inv t ∧ cond t = false := by
  intro fuel
  induction fuel with
  | zero => intro s _ hμ; omega
  | succ fuel ih =>
    intro s hs hμ
    cases hc : cond s with
    | false => exact ⟨s, whileLoop_succ_of_not_cond cond body hc fuel, hs, hc⟩
    | true =>
      -- one pass, then the rest of the loop from the smaller state
      obtain ⟨s', hbody, hs', hlt⟩ := hstep s hs hc
      rw [whileLoop_succ_of_cond cond body hc, hbody, Option.bind_some]
      exact ih s' hs' (by omega)

/-- **A stuck loop.**  A pass that leaves a state where the condition holds unchanged repeats
    for ever: no fuel makes the loop return. -/
theorem whileLoop_stuck {s : σ} (hc : cond s = true) (hb : body s = some s) :
    ∀ fuel, whileLoop cond body fuel s = none := by
  intro fuel
  induction fuel with
  | zero => rfl
  | succ fuel ih => rw [whileLoop_succ_of_cond cond body hc, hb, Option.bind_some, ih]

end Rules

end LinkerdProxy
