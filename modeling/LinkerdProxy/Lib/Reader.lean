import Mathlib.Data.List.Basic

namespace LinkerdProxy

/-!
# Readers over untrusted input

A reader consumes a sequence from the front and either returns a value with the unread rest or
fails because the input ended too early (the contract of a cursor over an untrusted byte slice:
a read of `n` items fails exactly when fewer than `n` remain).  `read_all` runs a reader over a
whole slice and fails also when the reader leaves part of it unread.

Parsers that are re-run on a growing buffer need their verdicts to survive more input:

* `Stable` — appending input changes neither the value nor what was consumed; reads of a fixed
  length and readers of already-extracted slices are stable, and stability is kept by `bind`;
* `ValueStable` — appending input keeps the value, whatever is consumed; a stable reader followed
  by a value-stable one is value-stable, and skipping to the end is value-stable;
* `read_all_of_skip_to_end` — a reader that skips to the end is never refused by `read_all`.

A loop of reads terminates when each round consumes input:

* `Advances k` — a successful read consumes at least `k` items; the reads of a fixed length
  advance by it, and `bind` adds what its two reads advance by.
-/

/-- The one failure of a read: the input ended before the read did. -/
structure EndOfInput where
  deriving DecidableEq, Repr

/-- A reader of an `α` from a sequence of `σ`: the value and the unread rest, or `EndOfInput`. -/
def Reader (σ α : Type) : Type := List σ → Except EndOfInput (α × List σ)

namespace Reader

variable {σ α β : Type}

protected def pure (a : α) : Reader σ α := fun xs => .ok (a, xs)

protected def bind (p : Reader σ α) (f : α → Reader σ β) : Reader σ β := fun xs =>
  match p xs with
  | .ok (a, rest) => f a rest
  | .error e => .error e

instance : Monad (Reader σ) where
  pure := Reader.pure
  bind := Reader.bind

@[simp] theorem pure_apply (a : α) (xs : List σ) : (pure a : Reader σ α) xs = .ok (a, xs) := rfl

theorem bind_apply (p : Reader σ α) (f : α → Reader σ β) (xs : List σ) :
    (p >>= f) xs = match p xs with
      | .ok (a, rest) => f a rest
      | .error e => .error e := rfl

theorem bind_of_ok {p : Reader σ α} {xs rest : List σ} {a : α} (h : p xs = .ok (a, rest))
    (f : α → Reader σ β) : (p >>= f) xs = f a rest := by
  rw [bind_apply, h]

theorem bind_of_error {p : Reader σ α} {xs : List σ} {e : EndOfInput} (h : p xs = .error e)
    (f : α → Reader σ β) : (p >>= f) xs = .error e := by
  rw [bind_apply, h]

/-- A bind succeeds exactly when both of its reads do, one after the other. -/
theorem bind_eq_ok {p : Reader σ α} {f : α → Reader σ β} {xs rest : List σ} {b : β} :
    (p >>= f) xs = .ok (b, rest) ↔ ∃ a mid, p xs = .ok (a, mid) ∧ f a mid = .ok (b, rest) := by
  rw [bind_apply]
  constructor
  · intro h
    split at h
    · rename_i a mid hp
      exact ⟨a, mid, hp, h⟩
    · cases h
  · rintro ⟨a, mid, hp, hf⟩
    rw [hp]
    exact hf

/-! ### The reads -/

/-- Read one item. -/
def readByte : Reader σ σ
  | [] => .error ⟨⟩
  | x :: xs => .ok (x, xs)

/-- Read the next `n` items as a slice. -/
def readBytes (n : Nat) : Reader σ (List σ) := fun xs =>
  if n ≤ xs.length then .ok (xs.take n, xs.drop n) else .error ⟨⟩

/-- Skip the next `n` items. -/
def skip (n : Nat) : Reader σ Unit := do
  let _ ← readBytes n
  pure ()

/-- Whether the input is exhausted. -/
def atEnd : Reader σ Bool := fun xs => .ok (xs.isEmpty, xs)

/-- Skip everything that is left. -/
def skipToEnd : Reader σ Unit := fun _ => .ok ((), [])

/-- Read everything that is left. -/
def readBytesToEnd : Reader σ (List σ) := fun xs => .ok (xs, [])

/-- A result computed without reading. -/
def lift (r : Except EndOfInput α) : Reader σ α := fun xs => r.map (·, xs)

/-- Run a reader over a whole slice; a reader that leaves part of it unread fails. -/
def readAll (input : List σ) (p : Reader σ α) : Except EndOfInput α :=
  match p input with
  | .ok (a, []) => .ok a
  | .ok (_, _ :: _) => .error ⟨⟩
  | .error e => .error e

@[simp] theorem read_byte_cons (x : σ) (xs : List σ) : readByte (x :: xs) = .ok (x, xs) := rfl

@[simp] theorem read_byte_nil : readByte ([] : List σ) = .error ⟨⟩ := rfl

theorem read_bytes_append (ys rest : List σ) :
    readBytes ys.length (ys ++ rest) = .ok (ys, rest) := by
  simp [readBytes]

@[simp] theorem skip_to_end_apply (xs : List σ) : skipToEnd xs = .ok ((), []) := rfl

@[simp] theorem read_bytes_to_end_apply (xs : List σ) : readBytesToEnd xs = .ok (xs, []) := rfl

@[simp] theorem lift_apply (r : Except EndOfInput α) (xs : List σ) :
    lift r xs = r.map (·, xs) := rfl

theorem read_all_eq_ok {input : List σ} {p : Reader σ α} {a : α} :
    readAll input p = .ok a ↔ p input = .ok (a, []) := by
  unfold readAll
  split <;> simp_all

/-- A reader that skips to the end is refused by `read_all` only when it fails itself. -/
theorem read_all_of_skip_to_end (input : List σ) (p : Reader σ α) :
    readAll input (do let a ← p; skipToEnd; pure a) = (p input).map Prod.fst := by
  unfold readAll
  rw [bind_apply]
  cases p input with
  | error e => rfl
  | ok r => rfl

/-! ### Stability under extension -/

/-- Appending input changes neither the value of a successful read nor what it consumed. -/
def Stable (p : Reader σ α) : Prop :=
  ∀ xs a rest, p xs = .ok (a, rest) → ∀ ys, p (xs ++ ys) = .ok (a, rest ++ ys)

/-- Appending input does not change the value of a successful read. -/
def ValueStable (p : Reader σ α) : Prop :=
  ∀ xs a rest, p xs = .ok (a, rest) → ∀ ys, ∃ rest', p (xs ++ ys) = .ok (a, rest')

theorem Stable.valueStable {p : Reader σ α} (hp : Stable p) : ValueStable p :=
  fun xs a rest h ys => ⟨rest ++ ys, hp xs a rest h ys⟩

theorem stable_pure (a : α) : Stable (pure a : Reader σ α) := by
  intro xs b rest h ys
  cases h
  rfl

theorem stable_read_byte : Stable (readByte : Reader σ σ) := by
  intro xs a rest h ys
  cases xs with
  | nil => cases h
  | cons x xs =>
    cases h
    rfl

theorem stable_read_bytes (n : Nat) : Stable (readBytes n : Reader σ (List σ)) := by
  intro xs a rest h ys
  unfold readBytes at h ⊢
  split at h
  · rename_i hn
    cases h
    have hn' : n ≤ (xs ++ ys).length := by simp; omega
    rw [if_pos hn', List.take_append_of_le_length hn, List.drop_append_of_le_length hn]
  · cases h

theorem stable_lift (r : Except EndOfInput α) : Stable (lift r : Reader σ α) := by
  intro xs a rest h ys
  cases r with
  | error e => cases h
  | ok b =>
    cases h
    rfl

theorem Stable.bind {p : Reader σ α} {f : α → Reader σ β} (hp : Stable p)
    (hf : ∀ a, Stable (f a)) : Stable (p >>= f) := by
  intro xs b rest h ys
  obtain ⟨a, mid, hpa, hfa⟩ := bind_eq_ok.mp h
  rw [bind_of_ok (hp xs a mid hpa ys)]
  exact hf a mid b rest hfa ys

/-- A stable read followed by a value-stable one is value-stable. -/
theorem Stable.bind_valueStable {p : Reader σ α} {f : α → Reader σ β} (hp : Stable p)
    (hf : ∀ a, ValueStable (f a)) : ValueStable (p >>= f) := by
  intro xs b rest h ys
  obtain ⟨a, mid, hpa, hfa⟩ := bind_eq_ok.mp h
  rw [bind_of_ok (hp xs a mid hpa ys)]
  exact hf a mid b rest hfa ys

theorem Stable.ite {c : Prop} [Decidable c] {p q : Reader σ α} (hp : Stable p) (hq : Stable q) :
    Stable (if c then p else q) := by
  split
  · exact hp
  · exact hq

theorem ValueStable.ite {c : Prop} [Decidable c] {p q : Reader σ α} (hp : ValueStable p)
    (hq : ValueStable q) : ValueStable (if c then p else q) := by
  split
  · exact hp
  · exact hq

/-- Skipping to the end keeps its (trivial) value, and so does returning afterwards. -/
theorem valueStable_skip_to_end_pure (a : α) :
    ValueStable (do skipToEnd; pure a : Reader σ α) := by
  intro xs b rest h ys
  refine ⟨[], ?_⟩
  cases h
  rfl

/-! ### Progress -/

/-- A successful read consumes at least `k` items. -/
def Advances (k : Nat) (p : Reader σ α) : Prop :=
  ∀ xs a rest, p xs = .ok (a, rest) → rest.length + k ≤ xs.length

theorem advances_pure (a : α) : Advances 0 (pure a : Reader σ α) := by
  intro xs b rest h
  cases h
  simp

theorem advances_read_byte : Advances 1 (readByte : Reader σ σ) := by
  intro xs a rest h
  cases xs with
  | nil => cases h
  | cons x xs =>
    cases h
    simp

theorem advances_read_bytes (n : Nat) : Advances n (readBytes n : Reader σ (List σ)) := by
  intro xs a rest h
  unfold readBytes at h
  split at h
  · cases h
    simp only [List.length_drop]
    omega
  · cases h

theorem advances_lift (r : Except EndOfInput α) : Advances 0 (lift r : Reader σ α) := by
  intro xs a rest h
  cases r with
  | error e => cases h
  | ok b =>
    cases h
    simp

theorem Advances.mono {j k : Nat} {p : Reader σ α} (hp : Advances j p) (h : k ≤ j) :
    Advances k p := fun xs a rest hr => by
  have := hp xs a rest hr
  omega

theorem Advances.bind {j k : Nat} {p : Reader σ α} {f : α → Reader σ β} (hp : Advances j p)
    (hf : ∀ a, Advances k (f a)) : Advances (j + k) (p >>= f) := by
  intro xs b rest h
  obtain ⟨a, mid, hpa, hfa⟩ := bind_eq_ok.mp h
  have h1 := hp xs a mid hpa
  have h2 := hf a mid b rest hfa
  omega

theorem Advances.ite {c : Prop} [Decidable c] {k : Nat} {p q : Reader σ α} (hp : Advances k p)
    (hq : Advances k q) : Advances k (if c then p else q) := by
  split
  · exact hp
  · exact hq

end Reader

end LinkerdProxy
