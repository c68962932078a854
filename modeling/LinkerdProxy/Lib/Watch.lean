import Mathlib.Order.Basic

namespace LinkerdProxy

/-!
# Single-value broadcast channels

A watch channel keeps only its latest value, with a version that every send increments; each
receiver remembers the version it last marked seen.  Reading the value does not mark it seen;
waiting for a change returns as soon as the channel's version differs from the receiver's, and
marks the newest version seen.  A cloned receiver starts from the version its original saw.

What the clients of such channels use:

* `send_value`, `send_version`, `close_value`, `close_version` — what a send and a close change;
* `changed_of_ne`, `changed_eq_ok` — a wait returns, marking the channel's version seen, exactly
  when that version differs from the receiver's.
-/

/-- The state of a watch channel: its latest value, its version, and whether the sender is
    gone. -/
structure Watch (α : Type) where
  value : α
  version : Nat
  closed : Bool
  deriving DecidableEq, Repr

namespace Watch

variable {α : Type}

/-- A receiver: the version it has marked seen. -/
structure Receiver where
  seen : Nat
  deriving DecidableEq, Repr

/-- Publish a new value. -/
def send (w : Watch α) (a : α) : Watch α := { w with value := a, version := w.version + 1 }

/-- The sender is dropped. -/
def close (w : Watch α) : Watch α := { w with closed := true }

/-- A new receiver has seen the current version. -/
def subscribe (w : Watch α) : Receiver := ⟨w.version⟩

/-- One poll of "wait for a change": ready with the newest version marked seen when there is
    one; an error when there is none and the sender is gone; `none` while pending. -/
def changed (w : Watch α) (r : Receiver) : Option (Except Unit Receiver) :=
  if w.version ≠ r.seen then some (.ok ⟨w.version⟩)
  else if w.closed then some (.error ())
  else none

@[simp] theorem send_value (w : Watch α) (a : α) : (w.send a).value = a := rfl

@[simp] theorem send_version (w : Watch α) (a : α) : (w.send a).version = w.version + 1 := rfl

@[simp] theorem close_value (w : Watch α) : w.close.value = w.value := rfl

@[simp] theorem close_version (w : Watch α) : w.close.version = w.version := rfl

theorem changed_of_ne {w : Watch α} {r : Receiver} (h : w.version ≠ r.seen) :
    w.changed r = some (.ok ⟨w.version⟩) := by
  simp [changed, h]

/-- A ready change marks the newest version seen. -/
theorem changed_eq_ok {w : Watch α} {r r' : Receiver} (h : w.changed r = some (.ok r')) :
    w.version ≠ r.seen ∧ r' = ⟨w.version⟩ := by
  unfold changed at h
  split at h
  · rename_i hne
    cases h
    exact ⟨hne, rfl⟩
  · split at h <;> cases h

end Watch

end LinkerdProxy
