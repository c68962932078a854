import Mathlib.Data.List.Forall2

namespace LinkerdProxy

/-!
# Decoding in `Except`

Decoders and builders are `Except` computations: a sequence of steps succeeds when each step
does (`except_bind_eq_ok`), and a walk over a list with `List.mapM` succeeds exactly when every
element does, with the list of the results, failing with the first failing element's error.

* `mapM_except_eq_ok_iff` — a successful walk relates each element to its result;
* `mapM_except_isOk_iff` — a walk succeeds when every element does.
-/

variable {ε α β γ : Type}

@[simp] theorem except_pure_eq (b : β) : (pure b : Except ε β) = .ok b := rfl

@[simp] theorem except_bind_ok (b : β) (f : β → Except ε γ) : (Except.ok b >>= f) = f b := rfl

@[simp] theorem except_bind_error (e : ε) (f : β → Except ε γ) :
    (Except.error e >>= f) = .error e := rfl

@[simp] theorem except_map_ok (b : β) (g : β → γ) :
    (g <$> (Except.ok b : Except ε β)) = .ok (g b) := rfl

@[simp] theorem except_map_error (e : ε) (g : β → γ) :
    (g <$> (Except.error e : Except ε β)) = .error e := rfl

@[simp] theorem except_fn_map_ok (b : β) (g : β → γ) :
    Except.map g (Except.ok b : Except ε β) = .ok (g b) := rfl

@[simp] theorem except_fn_map_error (e : ε) (g : β → γ) :
    Except.map g (Except.error e : Except ε β) = .error e := rfl

@[simp] theorem except_isOk_ok (b : β) : (Except.ok b : Except ε β).isOk = true := rfl

@[simp] theorem except_isOk_error (e : ε) : (Except.error e : Except ε β).isOk = false := rfl

/-- `Option::ok_or`: the value, or the given error. -/
def okOr (o : Option β) (e : ε) : Except ε β :=
  match o with
  | some b => .ok b
  | none => .error e

@[simp] theorem ok_or_some (b : β) (e : ε) : okOr (some b) e = .ok b := rfl

@[simp] theorem ok_or_none (e : ε) : okOr (none : Option β) e = .error e := rfl

/-- A computation followed by a pure function of its result succeeds when the computation does. -/
theorem except_isOk_bind_pure (x : Except ε β) (g : β → γ) :
    (x >>= fun b => pure (g b)).isOk = x.isOk := by
  cases x <;> rfl

theorem except_bind_eq_ok {x : Except ε β} {f : β → Except ε γ} {c : γ} :
    (x >>= f) = .ok c ↔ ∃ b, x = .ok b ∧ f b = .ok c := by
  cases x <;> simp

theorem except_map_eq_ok {x : Except ε β} {g : β → γ} {c : γ} :
    Except.map g x = .ok c ↔ ∃ b, x = .ok b ∧ g b = c := by
  cases x <;> simp

@[simp] theorem except_mapError_ok (b : β) (g : ε → γ) :
    (Except.ok b : Except ε β).mapError g = .ok b := rfl

@[simp] theorem except_mapError_error (e : ε) (g : ε → γ) :
    (Except.error e : Except ε β).mapError g = .error (g e) := rfl

theorem mapM_except_eq_ok_iff (f : α → Except ε β) (l : List α) (bs : List β) :
    l.mapM f = .ok bs ↔ List.Forall₂ (fun a b => f a = .ok b) l bs := by
  induction l generalizing bs with
  | nil => cases bs <;> simp
  | cons a l ih =>
    simp only [List.mapM_cons, List.forall₂_cons_left_iff]
    cases hfa : f a with
    | error e => simp
    | ok b =>
      cases hl : l.mapM f with
      | error e =>
        -- the tail fails, so it relates to no list
        have hnot : ∀ bs', ¬ List.Forall₂ (fun a b => f a = .ok b) l bs' := fun bs' h => by
          have := (ih bs').mpr h
          rw [hl] at this
          cases this
        simp [hnot]
      | ok bs' =>
        have hrel : ∀ cs, List.Forall₂ (fun a b => f a = .ok b) l cs ↔ cs = bs' := fun cs => by
          rw [← ih, hl, Except.ok.injEq, eq_comm]
        simp [hrel, eq_comm]

theorem mapM_except_isOk_iff (f : α → Except ε β) (l : List α) :
    (l.mapM f).isOk = true ↔ ∀ a ∈ l, (f a).isOk = true := by
  induction l with
  | nil => simp
  | cons a l ih =>
    simp only [List.mapM_cons, List.mem_cons, forall_eq_or_imp]
    cases f a with
    | error e => simp
    | ok b =>
      rw [← ih]
      cases l.mapM f <;> simp

end LinkerdProxy
