import Mathlib.Data.List.Basic

namespace LinkerdProxy

/-!
# A fair semaphore of single permits

A counting semaphore as an asynchronous runtime's batch semaphore hands out single permits: the
permits free, whether it is closed, the waiters queued for a permit (oldest first), and the
waiters a released permit was granted to that have not polled since.  Its contract:

* a released permit goes to the oldest waiter, and to the free permits only when none waits;
* a waiter's first poll takes a free permit or joins the queue; a later poll takes the permit
  granted to it;
* every poll on a closed semaphore fails, also one of a waiter that was granted a permit;
* a waiter dropped before it took its permit leaves the queue, or gives back the permit granted
  to it, which goes on to the next waiter;
* closing wakes every queued waiter (whose next poll fails) and issues no more permits.

What is proved:

* `free` — the permits in no one's hands, free or granted; every operation moves it by the
  permits it hands out or takes back (`taken_acquire`, `taken_poll`, `free_release`,
  `free_cancel`, `free_close`, `free_try_acquire`);
* `Fair` — a waiter is queued only while no permit is free; every operation keeps it;
* `Waits` — a waiter is queued or granted; the operations of other waiters keep it, and a waiter
  that waits on a fair semaphore with a free permit has been granted one (`granted_of_waits`);
* `poll_ready` — a waiter's poll takes a permit only from an open semaphore; conversely an open semaphore with a free permit hands one out at once
  (`acquire_ready_of`, `try_acquire_of`), and a granted waiter takes its permit
  (`poll_ready_of`).
-/

/-- The semaphore's state; `ι` names the waiters. -/
structure Semaphore (ι : Type*) where
  permits : Nat
  closed : Bool
  queue : List ι
  granted : List ι
  deriving DecidableEq, Repr

/-- What a poll of an acquisition gives. -/
inductive Acquire where
  | ready
  | pending
  | closed
  deriving DecidableEq, Repr

/-- The permits a poll hands out. -/
def Acquire.taken : Acquire → Nat
  | .ready => 1
  | _ => 0

namespace Semaphore

variable {ι : Type*}

/-- A semaphore with `permits` permits. -/
def new (permits : Nat) : Semaphore ι := ⟨permits, false, [], []⟩

/-- The permits in no one's hands: free, or granted to a waiter that has not taken it. -/
def free (s : Semaphore ι) : Nat := s.permits + s.granted.length

/-- `try_acquire`: a free permit of an open semaphore, without waiting. -/
def tryAcquire (s : Semaphore ι) : Option (Semaphore ι) :=
  if s.closed = false ∧ 0 < s.permits then some { s with permits := s.permits - 1 } else none

/-- The first poll of `w`'s acquisition: it fails on a closed semaphore, takes a free permit, or
    joins the back of the queue. -/
def acquire (s : Semaphore ι) (w : ι) : Semaphore ι × Acquire :=
  if s.closed then (s, .closed)
  else if 0 < s.permits then ({ s with permits := s.permits - 1 }, .ready)
  else ({ s with queue := s.queue ++ [w] }, .pending)

/-- A later poll of `w`'s acquisition: it fails on a closed semaphore, and otherwise takes the
    permit granted to it, if any. -/
def poll [DecidableEq ι] (s : Semaphore ι) (w : ι) : Semaphore ι × Acquire :=
  if s.closed then (s, .closed)
  else if w ∈ s.granted then ({ s with granted := s.granted.erase w }, .ready)
  else (s, .pending)

/-- A permit given back: it is granted to the oldest waiter, or becomes free. -/
def release (s : Semaphore ι) : Semaphore ι :=
  match s.queue with
  | [] => { s with permits := s.permits + 1 }
  | w :: ws => { s with queue := ws, granted := w :: s.granted }

/-- `w`'s acquisition dropped before it took its permit: a granted permit is given back, and a
    queued waiter leaves the queue. -/
def cancel [DecidableEq ι] (s : Semaphore ι) (w : ι) : Semaphore ι :=
  if w ∈ s.granted then { s with granted := s.granted.erase w }.release
  else { s with queue := s.queue.erase w }

/-- `close`: no permit is issued any more, and the queued waiters are woken. -/
def close (s : Semaphore ι) : Semaphore ι := { s with closed := true, queue := [] }

/-! ### The permits in no one's hands -/

@[simp] theorem free_new (n : Nat) : (new n : Semaphore ι).free = n := rfl

@[simp] theorem taken_acquire (s : Semaphore ι) (w : ι) :
    (s.acquire w).1.free + (s.acquire w).2.taken = s.free := by
  unfold acquire free
  split
  · rfl
  · split
    · simp only [Acquire.taken]; omega
    · rfl

@[simp] theorem taken_poll [DecidableEq ι] (s : Semaphore ι) (w : ι) :
    (s.poll w).1.free + (s.poll w).2.taken = s.free := by
  unfold poll free
  split
  · rfl
  · split
    · rename_i hw
      simp only [Acquire.taken, List.length_erase_of_mem hw]
      have : 0 < s.granted.length := List.length_pos_of_mem hw
      omega
    · rfl

@[simp] theorem free_release (s : Semaphore ι) : s.release.free = s.free + 1 := by
  unfold release free
  split <;> simp only [List.length_cons] <;> omega

@[simp] theorem free_cancel [DecidableEq ι] (s : Semaphore ι) (w : ι) :
    (s.cancel w).free = s.free := by
  unfold cancel
  split
  · rename_i hw
    rw [free_release]
    have : 0 < s.granted.length := List.length_pos_of_mem hw
    simp only [free, List.length_erase_of_mem hw]
    omega
  · rfl

@[simp] theorem free_close (s : Semaphore ι) : s.close.free = s.free := rfl

theorem free_try_acquire {s s' : Semaphore ι} (h : s.tryAcquire = some s') :
    s'.free + 1 = s.free := by
  unfold tryAcquire at h
  split at h
  · rename_i hs
    cases h
    simp only [free]
    omega
  · cases h

/-! ### Closing -/

@[simp] theorem closed_acquire (s : Semaphore ι) (w : ι) :
    (s.acquire w).1.closed = s.closed := by
  unfold acquire; split
  · rfl
  · split <;> rfl

@[simp] theorem closed_poll [DecidableEq ι] (s : Semaphore ι) (w : ι) :
    (s.poll w).1.closed = s.closed := by
  unfold poll; split
  · rfl
  · split <;> rfl

@[simp] theorem closed_release (s : Semaphore ι) : s.release.closed = s.closed := by
  unfold release; split <;> rfl

@[simp] theorem closed_cancel [DecidableEq ι] (s : Semaphore ι) (w : ι) :
    (s.cancel w).closed = s.closed := by
  unfold cancel; split
  · rw [closed_release]
  · rfl

theorem closed_try_acquire {s s' : Semaphore ι} (h : s.tryAcquire = some s') :
    s'.closed = s.closed := by
  unfold tryAcquire at h
  split at h
  · cases h; rfl
  · cases h

/-- Only an open semaphore hands out a granted permit. -/
theorem pollReady [DecidableEq ι] {s : Semaphore ι} {w : ι} (h : (s.poll w).2 = .ready) :
    s.closed = false := by
  unfold poll at h
  split at h
  · cases h
  · rename_i hs; simpa using hs

theorem acquire_closed {s : Semaphore ι} {w : ι} (h : (s.acquire w).2 = .closed) :
    s.closed = true := by
  unfold acquire at h
  split at h
  · assumption
  · split at h <;> cases h

/-- A free permit of an open semaphore is taken at once. -/
theorem acquire_ready_of {s : Semaphore ι} (hc : s.closed = false) (hp : 0 < s.permits) (w : ι) :
    (s.acquire w).2 = .ready := by
  simp [acquire, hc, hp]

theorem try_acquire_of {s : Semaphore ι} (hc : s.closed = false) (hp : 0 < s.permits) :
    s.tryAcquire = some { s with permits := s.permits - 1 } := by
  simp [tryAcquire, hc, hp]

theorem poll_closed [DecidableEq ι] {s : Semaphore ι} {w : ι} (h : (s.poll w).2 = .closed) :
    s.closed = true := by
  unfold poll at h
  split at h
  · assumption
  · split at h <;> cases h

theorem poll_closed_of [DecidableEq ι] {s : Semaphore ι} (hc : s.closed = true) (w : ι) :
    (s.poll w).2 = .closed := by
  simp [poll, hc]

/-- A waiter granted a permit of an open semaphore takes it. -/
theorem poll_ready_of [DecidableEq ι] {s : Semaphore ι} {w : ι} (hc : s.closed = false)
    (hg : w ∈ s.granted) : (s.poll w).2 = .ready := by
  simp [poll, hc, hg]

/-- Giving a permit back never lowers the free permits. -/
theorem permits_release (s : Semaphore ι) : s.permits ≤ s.release.permits := by
  unfold release
  split
  · exact Nat.le_succ _
  · exact Nat.le_refl _

/-! ### Fairness -/

/-- A waiter is queued only while no permit is free. -/
def Fair (s : Semaphore ι) : Prop := s.queue ≠ [] → s.permits = 0

theorem fair_new (n : Nat) : (new n : Semaphore ι).Fair := fun h => absurd rfl h

theorem Fair.acquire {s : Semaphore ι} (h : s.Fair) (w : ι) : (s.acquire w).1.Fair := by
  unfold Semaphore.acquire
  split
  · exact h
  · split
    · rename_i hp
      intro hq
      have := h hq
      omega
    · rename_i hp
      intro _
      show s.permits = 0
      omega

theorem Fair.poll [DecidableEq ι] {s : Semaphore ι} (h : s.Fair) (w : ι) : (s.poll w).1.Fair := by
  unfold Semaphore.poll
  split
  · exact h
  · split
    · exact h
    · exact h

theorem Fair.release {s : Semaphore ι} (h : s.Fair) : s.release.Fair := by
  unfold Semaphore.release
  split
  · rename_i hnil
    intro hq
    exact absurd hnil hq
  · rename_i w ws hq
    intro _
    exact h (by rw [hq]; exact List.cons_ne_nil w ws)

theorem Fair.cancel [DecidableEq ι] {s : Semaphore ι} (h : s.Fair) (w : ι) : (s.cancel w).Fair := by
  unfold Semaphore.cancel
  split
  · exact Fair.release (s := { s with granted := s.granted.erase w }) h
  · intro hq
    apply h
    intro hnil
    apply hq
    show s.queue.erase w = []
    rw [hnil]
    rfl

theorem Fair.close {s : Semaphore ι} : s.close.Fair := fun hq => absurd rfl hq

theorem Fair.tryAcquire {s s' : Semaphore ι} (h : s.Fair) (ht : s.tryAcquire = some s') :
    s'.Fair := by
  unfold Semaphore.tryAcquire at ht
  split at ht
  · rename_i hs
    cases ht
    intro hq
    have := h hq
    omega
  · cases ht

/-! ### Waiting -/

/-- `w` waits: it is queued, or was granted a permit it has not taken. -/
def Waits (s : Semaphore ι) (w : ι) : Prop := w ∈ s.queue ∨ w ∈ s.granted

/-- A first poll that does not take a permit from an open semaphore leaves the waiter queued. -/
theorem waits_acquire {s : Semaphore ι} {w : ι} (h : (s.acquire w).2 = .pending) :
    (s.acquire w).1.Waits w := by
  unfold acquire at h ⊢
  split at h
  · cases h
  · split at h
    · cases h
    · rename_i hc hp
      simp only [hc, hp, if_false]
      exact .inl (List.mem_append_right _ (List.mem_singleton_self w))

theorem Waits.acquire {s : Semaphore ι} {v : ι} (h : s.Waits v) (w : ι) :
    (s.acquire w).1.Waits v := by
  unfold Semaphore.acquire
  split
  · exact h
  · split
    · exact h
    · rcases h with h | h
      · exact .inl (List.mem_append_left _ h)
      · exact .inr h

theorem Waits.poll [DecidableEq ι] {s : Semaphore ι} {v w : ι} (h : s.Waits v) (hvw : v ≠ w) :
    (s.poll w).1.Waits v := by
  unfold Semaphore.poll
  split
  · exact h
  · split
    · rcases h with h | h
      · exact .inl h
      · exact .inr ((List.mem_erase_of_ne hvw).mpr h)
    · exact h

theorem Waits.release {s : Semaphore ι} {v : ι} (h : s.Waits v) : s.release.Waits v := by
  unfold Semaphore.release
  split
  · exact h
  · rename_i w ws hq
    rcases h with h | h
    · rw [hq] at h
      rcases List.mem_cons.mp h with rfl | h
      · exact .inr List.mem_cons_self
      · exact .inl h
    · exact .inr (List.mem_cons_of_mem w h)

theorem Waits.cancel [DecidableEq ι] {s : Semaphore ι} {v w : ι} (h : s.Waits v) (hvw : v ≠ w) :
    (s.cancel w).Waits v := by
  unfold Semaphore.cancel
  split
  · apply Waits.release (s := { s with granted := s.granted.erase w })
    rcases h with h | h
    · exact .inl h
    · exact .inr ((List.mem_erase_of_ne hvw).mpr h)
  · rcases h with h | h
    · exact .inl ((List.mem_erase_of_ne hvw).mpr h)
    · exact .inr h

theorem Waits.tryAcquire {s s' : Semaphore ι} {v : ι} (h : s.Waits v)
    (ht : s.tryAcquire = some s') : s'.Waits v := by
  unfold Semaphore.tryAcquire at ht
  split at ht
  · cases ht; exact h
  · cases ht

/-- On a fair semaphore with a free permit a waiter is not queued: it was granted a permit. -/
theorem granted_of_waits {s : Semaphore ι} {w : ι} (hf : s.Fair) (hw : s.Waits w)
    (hp : 0 < s.permits) : w ∈ s.granted := by
  rcases hw with hq | hg
  · have := hf (List.ne_nil_of_mem hq)
    omega
  · exact hg

end Semaphore

end LinkerdProxy
