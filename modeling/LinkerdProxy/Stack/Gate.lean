import LinkerdProxy.Distribute.Random
import LinkerdProxy.Lib.Machine
import LinkerdProxy.Lib.Semaphore

namespace LinkerdProxy.Stack.Gates

open Machine
open Distribute (Readiness)

/-!
# Gating a service's readiness (`linkerd_stack::gate`)

A `Gate` makes its inner service ready only as a watched gate state allows.  `Open` admits every
request; `Limited(sem)` admits one request for each permit of the semaphore `sem`, whose permit
the request's `call` forgets; `Shut` admits none.  Each change of the state by the `Tx` closes
the semaphore of the state it replaces.  `poll_ready` drops the permit of an earlier readiness,
then acquires: while not already waiting it reads the state, is admitted at once when the gate is
open or a permit is free, and otherwise starts `Rx::opened`, a future that loops over the state
until it is open or a permit is acquired.  The permit is kept only when the inner service is then
ready.  Gates are cloned and share the channel and its semaphores.

The system is every clone of the gate, the `Tx` and the semaphores, as one machine whose events
say which party moves: a gate's owner polls (given what its inner service answers), calls,
clones or drops it, and the `Tx` opens, limits or shuts the gate, or is dropped.  Semaphores are
the fair semaphores of `Lib.Semaphore`, the gates their waiters, named by their index.

* `Admits` — in every reachable world each semaphore is open exactly while it is the state's,
  and each waiting `opened` future has a version or a semaphore that will wake it;
* `Ledger` — the permits of each semaphore are conserved: free, granted, held by a ready gate or
  forgotten by a call, they add up to what `limit` made it with;
* `gate_permits_bounded` — over every run, a call with a permit of a semaphore made with `n`
  permits comes after fewer than `n` such calls;
* `gate_admission` — in every reachable world, a gate polled with its inner service ready
  becomes ready only with what the state admits (nothing while shut), and does become ready
  whenever the state lets it through: while open, or while the state's semaphore has a free
  permit, wherever its earlier polls left it waiting (`Passes`, `poll_ready_passes`).
-/

/-- `State`; a limited gate names its semaphore. -/
inductive State where
  | Open
  | Limited (sem : Nat)
  | Shut
  deriving DecidableEq, Repr

/-- What a state admits a ready gate with: nothing to hold when open, a permit of its semaphore
    when limited, and no readiness at all when shut. -/
def State.admits : State → Option Nat → Bool
  | .Open, none => true
  | .Limited k, some j => j = k
  | _, _ => false

/-- Where `Rx::opened` waits between two polls. -/
inductive Opened where
  /-- At `sem.acquire_owned().await`, having read `Limited(sem)` at version `seen`. -/
  | acquire (sem seen : Nat)
  /-- At `self.0.changed().await`, having seen version `seen`. -/
  | changed (seen : Nat)
  /-- At `futures::future::pending().await`: the `Tx` was dropped. -/
  | stalled
  deriving DecidableEq, Repr

/-- A poll of `Rx::opened`: the permit it returns, or where it waits. -/
inductive OpenedPoll where
  | ready (permit : Option Nat)
  | pending (future : Opened)
  deriving DecidableEq, Repr

/-- `Gate`, its inner service and receiver apart: `acquire` is the future while `acquiring`, and
    `permit` the readiness of the last `poll_ready` (`none` is `Poll::Pending`). -/
structure Gate where
  acquire : Option Opened
  permit : Option (Option Nat)
  deriving DecidableEq, Repr

/-- `Gate::new`. -/
def Gate.new : Gate := ⟨none, none⟩

/-- The permit a gate holds, if it is alive and holds one. -/
def holding (g : Option Gate) : Option Nat := (g.bind Gate.permit).join

/-- The gates sharing one channel by index (`none` once dropped), the watched state and its
    version, the semaphores by index with the next index, and whether the `Tx` was dropped. -/
structure World where
  state : State
  version : Nat
  sems : Nat → Semaphore Nat
  next_sem : Nat
  gates : List (Option Gate)
  tx_dropped : Bool

/-- What the parties do: a gate's owner polls it (its inner service answering `inner` if
    polled), calls, clones or drops it; the `Tx` opens, limits or shuts the gate, or is dropped. -/
inductive Event (E : Type) where
  | pollReady (gate : Nat) (inner : Readiness E)
  | call (gate : Nat)
  | clone (gate : Nat)
  | drop (gate : Nat)
  | «open»
  | limit (permits : Nat)
  | shut
  | drop_tx

/-- What can be seen: what a gate's `poll_ready` returned, with the permit it keeps; its calls
    with the permit each forgets, and the panic; and what the `Tx`'s methods returned. -/
inductive Out (E : Type) where
  | ready (gate : Nat) (permit : Option Nat)
  | pending (gate : Nat)
  | failed (gate : Nat) (error : E)
  | called (gate : Nat) (permit : Option Nat)
  | call_panicked (gate : Nat) (msg : String)
  /-- `Tx::open` or `Tx::shut` returned `Ok(())`. -/
  | sent
  /-- `Tx::limit` returned `Ok(sem)`, a semaphore of `permits` permits. -/
  | limited (sem permits : Nat)
  /-- A `Tx` method returned `Err(Closed)`: every receiver is gone. -/
  | tx_closed
  deriving DecidableEq, Repr

namespace World

variable {E : Type}

/-- Gate `i`, if it is alive. -/
def gate (w : World) (i : Nat) : Option Gate := w.gates[i]?.join

def setSem (w : World) (k : Nat) (s : Semaphore Nat) : World :=
  { w with sems := Function.update w.sems k s }

def updGate (w : World) (i : Nat) (f : Gate → Gate) : World :=
  { w with gates := w.gates.modify i (Option.map f) }

/-- A permit dropped: it goes back to its semaphore. -/
def dropPermit (w : World) : Option Nat → World
  | none => w
  | some k => w.setSem k (w.sems k).release

/-- `self.0.changed().await` with nothing newer than `seen`: it waits, for ever once the `Tx`
    was dropped. -/
def waitChanged (w : World) (seen : Nat) : Opened :=
  if w.tx_dropped then .stalled else .changed seen

/-- One pass from the top of `Rx::opened`'s loop for gate `i`: `borrow_and_update` reads the
    state at the current version, then its arm. -/
def openedTop (w : World) (i : Nat) : World × OpenedPoll :=
  match w.state with
  | .Open => (w, .ready none)
  | .Shut => (w, .pending (w.waitChanged w.version))
  | .Limited k =>
    match (w.sems k).acquire i with
    | (s, .ready) => (w.setSem k s, .ready (some k))
    | (s, .pending) => (w.setSem k s, .pending (.acquire k w.version))
    -- "Semaphore closed": wait for the state to change
    | (_, .closed) => (w, .pending (w.waitChanged w.version))

/-- `self.0.changed().await` having seen `seen`: a newer version goes round the loop again. -/
def changedFrom (w : World) (i seen : Nat) : World × OpenedPoll :=
  if w.version = seen then (w, .pending (w.waitChanged seen)) else w.openedTop i

/-- A poll of gate `i`'s waiting `Rx::opened`. -/
def openedPoll (w : World) (i : Nat) : Opened → World × OpenedPoll
  | .acquire k seen =>
    match (w.sems k).poll i with
    | (s, .ready) => (w.setSem k s, .ready (some k))
    | (_, .pending) => (w, .pending (.acquire k seen))
    -- the failed acquisition is dropped, giving back a permit granted to it
    | (_, .closed) => (w.setSem k ((w.sems k).cancel i)).changedFrom i seen
  | .changed seen => w.changedFrom i seen
  | .stalled => (w, .pending .stalled)

/-- Gate `i`'s `acquiring` and `acquire` after a poll of its future, and what `poll_acquire`
    returns (`none` is `Poll::Pending`). -/
def settle (i : Nat) : World × OpenedPoll → World × Option (Option Nat)
  | (w, .ready p) => (w.updGate i fun g => { g with acquire := none }, some p)
  | (w, .pending f) => (w.updGate i fun g => { g with acquire := some f }, none)

/-- `Gate::poll_acquire` of gate `g` at `i`. -/
def pollAcquire (w : World) (i : Nat) (g : Gate) : World × Option (Option Nat) :=
  match g.acquire with
  | some f => settle i (w.openedPoll i f)
  | none =>
    match w.state with
    | .Open => (w, some none)
    | .Limited k =>
      match (w.sems k).tryAcquire with
      | some s => (w.setSem k s, some (some k))
      -- at capacity: wait until something changes
      | none => settle i (w.openedTop i)
    | .Shut => settle i (w.openedTop i)

/-- `self.permit = Poll::Pending` on gate `g` at `i`: the permit of its earlier readiness is
    dropped. -/
def unhold (w : World) (i : Nat) (g : Gate) : World :=
  (w.dropPermit (holding (some g))).updGate i fun g => { g with permit := none }

/-- The rest of `poll_ready` once `poll_acquire` has answered: the permit is kept when the inner
    service is ready, and dropped when it is not. -/
def readyInner (i : Nat) (inner : Readiness E) :
    World × Option (Option Nat) → World × List (Out E)
  | (w, none) => (w, [.pending i])
  | (w, some p) =>
    match inner with
    | .ready => (w.updGate i fun g => { g with permit := some p }, [.ready i p])
    | .pending => (w.dropPermit p, [.pending i])
    | .failed e => (w.dropPermit p, [.failed i e])

/-- `Gate::poll_ready` of gate `i`, whose inner service answers `inner` if it is polled. -/
def pollReady (w : World) (i : Nat) (inner : Readiness E) : World × List (Out E) :=
  match w.gate i with
  | none => (w, [])
  | some g => readyInner i inner ((w.unhold i g).pollAcquire i { g with permit := none })

/-- `Gate::call` of gate `i`: the permit is forgotten, never to go back to its semaphore. -/
def call (w : World) (i : Nat) : World × List (Out E) :=
  match w.gate i with
  | none => (w, [])
  | some g =>
    match g.permit with
    | none => (w, [.call_panicked i "poll_ready must be called first"])
    | some p => (w.updGate i fun g => { g with permit := none }, [.called i p])

/-- `Gate::clone` of gate `i`: a new gate on a clone of its receiver. -/
def clone (w : World) (i : Nat) : World :=
  match w.gate i with
  | none => w
  | some _ => { w with gates := w.gates ++ [some Gate.new] }

/-- Dropping gate `i`'s `acquire` future: an acquisition leaves the queue, or gives back the
    permit granted to it. -/
def dropFuture (w : World) (i : Nat) : Option Opened → World
  | some (.acquire k _) => w.setSem k ((w.sems k).cancel i)
  | _ => w

/-- Dropping gate `i`: its fields in order, the `acquire` future, then the permit. -/
def drop (w : World) (i : Nat) : World :=
  match w.gate i with
  | none => w
  | some g =>
    { (w.dropFuture i g.acquire).dropPermit (holding (some g)) with
      gates := w.gates.set i none }

/-- `Tx::is_closed`: every receiver, the gates' and their futures', is gone. -/
def rxClosed (w : World) : Bool := w.gates.all Option.isNone

/-- `send_replace` of a new state: the version moves on, and the semaphore of a limited state is
    closed. -/
def send_replace (w : World) (st : State) : World :=
  let w₁ := match w.state with
    | .Limited k => w.setSem k (w.sems k).close
    | _ => w
  { w₁ with state := st, version := w.version + 1 }

/-- `Tx::open` and `Tx::shut` share one shape: fail once every receiver is gone, else replace the
    state. -/
def send (w : World) (st : State) : World × List (Out E) :=
  if w.rxClosed then (w, [.tx_closed]) else (w.send_replace st, [.sent])

/-- `Tx::open`. -/
def «open» (w : World) : World × List (Out E) := w.send .Open

/-- `Tx::shut`. -/
def shut (w : World) : World × List (Out E) := w.send .Shut

/-- `Tx::limit`: a new semaphore of `permits` permits, which becomes the state's. -/
def limit (w : World) (permits : Nat) : World × List (Out E) :=
  if w.rxClosed then (w, [.tx_closed])
  else
    let w₁ := { w.setSem w.next_sem (Semaphore.new permits) with next_sem := w.next_sem + 1 }
    (w₁.send_replace (.Limited w.next_sem), [.limited w.next_sem permits])

/-- One event; a `Tx` method needs a `Tx`, and none is left once it was dropped. -/
def step (w : World) : Event E → World × List (Out E)
  | .pollReady i inner => w.pollReady i inner
  | .call i => w.call i
  | .clone i => (w.clone i, [])
  | .drop i => (w.drop i, [])
  | .open => if w.tx_dropped then (w, []) else w.open
  | .limit n => if w.tx_dropped then (w, []) else w.limit n
  | .shut => if w.tx_dropped then (w, []) else w.shut
  | .drop_tx => ({ w with tx_dropped := true }, [])

end World

/-- `Gate::channel`: an open gate and its `Tx`. -/
def channel : World := ⟨.Open, 0, fun _ => Semaphore.new 0, 0, [some Gate.new], false⟩

/-- The gates, the `Tx` and the semaphores as one machine. -/
def machine {E : Type} : Machine World (Event E) (Out E) := ⟨World.step⟩

/-! ### What each operation changes -/

/-- Counting after one entry of a list is replaced. -/
theorem countP_set {α : Type*} (p : α → Bool) (b : α) :
    ∀ (l : List α) (i : Nat) (a : α), l[i]? = some a →
      (l.set i b).countP p + (if p a then 1 else 0) = l.countP p + (if p b then 1 else 0)
  | [], _, _, h => by simp at h
  | c :: l, 0, a, h => by
    simp only [List.getElem?_cons_zero, Option.some.injEq] at h
    subst h
    simp only [List.set_cons_zero, List.countP_cons]
    omega
  | c :: l, i + 1, a, h => by
    simp only [List.getElem?_cons_succ] at h
    have := countP_set p b l i a h
    simp only [List.set_cons_succ, List.countP_cons]
    omega

/-- Counting after one entry of a list is changed. -/
theorem countP_modify {α : Type*} (p : α → Bool) (f : α → α) (l : List α) (i : Nat) (a : α)
    (h : l[i]? = some a) :
    (l.modify i f).countP p + (if p a then 1 else 0) = l.countP p + (if p (f a) then 1 else 0) := by
  rw [List.modify_eq_set_getElem?, h]
  exact countP_set p (f a) l i a h

namespace World

variable {E : Type} {w : World} {i j k : Nat}

@[simp] theorem setSem_state (s : Semaphore Nat) : (w.setSem k s).state = w.state := rfl
@[simp] theorem setSem_version (s : Semaphore Nat) : (w.setSem k s).version = w.version := rfl
@[simp] theorem setSem_next_sem (s : Semaphore Nat) : (w.setSem k s).next_sem = w.next_sem := rfl
@[simp] theorem setSem_gates (s : Semaphore Nat) : (w.setSem k s).gates = w.gates := rfl
@[simp] theorem setSem_tx_dropped (s : Semaphore Nat) :
    (w.setSem k s).tx_dropped = w.tx_dropped := rfl
@[simp] theorem setSem_sems (s : Semaphore Nat) :
    (w.setSem k s).sems = Function.update w.sems k s := rfl

@[simp] theorem updGate_state (f : Gate → Gate) : (w.updGate i f).state = w.state := rfl
@[simp] theorem updGate_version (f : Gate → Gate) : (w.updGate i f).version = w.version := rfl
@[simp] theorem updGate_next_sem (f : Gate → Gate) : (w.updGate i f).next_sem = w.next_sem := rfl
@[simp] theorem updGate_tx_dropped (f : Gate → Gate) :
    (w.updGate i f).tx_dropped = w.tx_dropped := rfl
@[simp] theorem updGate_sems (f : Gate → Gate) : (w.updGate i f).sems = w.sems := rfl

theorem gate_updGate (f : Gate → Gate) (j : Nat) :
    (w.updGate i f).gate j = if i = j then (w.gate j).map f else w.gate j := by
  unfold gate updGate
  rw [List.getElem?_modify]
  by_cases h : i = j
  · cases w.gates[j]? with
    | none => simp [h]
    | some o => cases o <;> simp [h]
  · cases w.gates[j]? <;> simp [h]

theorem gate_updGate_self (f : Gate → Gate) : (w.updGate i f).gate i = (w.gate i).map f := by
  rw [gate_updGate, if_pos rfl]

theorem gate_updGate_ne (f : Gate → Gate) (h : i ≠ j) : (w.updGate i f).gate j = w.gate j := by
  rw [gate_updGate, if_neg h]

@[simp] theorem drop_permit_state (p : Option Nat) : (w.dropPermit p).state = w.state := by
  cases p <;> rfl
@[simp] theorem drop_permit_version (p : Option Nat) : (w.dropPermit p).version = w.version := by
  cases p <;> rfl
@[simp] theorem drop_permit_next_sem (p : Option Nat) :
    (w.dropPermit p).next_sem = w.next_sem := by
  cases p <;> rfl
@[simp] theorem drop_permit_gates (p : Option Nat) : (w.dropPermit p).gates = w.gates := by
  cases p <;> rfl
@[simp] theorem drop_permit_tx_dropped (p : Option Nat) :
    (w.dropPermit p).tx_dropped = w.tx_dropped := by
  cases p <;> rfl

theorem gate_of_gates {w' : World} (h : w'.gates = w.gates) (j : Nat) : w'.gate j = w.gate j := by
  unfold gate; rw [h]

/-! ### Polling a gate's future

Polling `Rx::opened` moves the semaphores' permits and waiters only: it leaves the state, the
version, the gates and every semaphore's being closed as they are, keeps each semaphore fair,
and keeps the other gates waiting where they wait. -/

/-- What a gate's poll leaves as it was: the state and its version, the semaphores made and
    which of them are closed, and the `Tx`. -/
structure Steady (w w' : World) : Prop where
  state : w'.state = w.state
  version : w'.version = w.version
  next_sem : w'.next_sem = w.next_sem
  tx_dropped : w'.tx_dropped = w.tx_dropped
  closed : ∀ k, (w'.sems k).closed = (w.sems k).closed

theorem Steady.refl (w : World) : Steady w w := ⟨rfl, rfl, rfl, rfl, fun _ => rfl⟩

theorem Steady.trans {w₁ w₂ w₃ : World} (h₁ : Steady w₁ w₂) (h₂ : Steady w₂ w₃) :
    Steady w₁ w₃ :=
  ⟨h₂.state.trans h₁.state, h₂.version.trans h₁.version, h₂.next_sem.trans h₁.next_sem,
    h₂.tx_dropped.trans h₁.tx_dropped, fun k => (h₂.closed k).trans (h₁.closed k)⟩

theorem steady_updGate (f : Gate → Gate) : Steady w (w.updGate i f) :=
  ⟨rfl, rfl, rfl, rfl, fun _ => rfl⟩

/-- What a poll of gate `i`'s future may change: the semaphores' permits and waiters, keeping
    them fair and the other gates waiting. -/
structure Moves (i : Nat) (w w' : World) : Prop extends Steady w w' where
  gates : w'.gates = w.gates
  fair : (∀ k, (w.sems k).Fair) → ∀ k, (w'.sems k).Fair
  waits : ∀ j, j ≠ i → ∀ k, (w.sems k).Waits j → (w'.sems k).Waits j

theorem Moves.refl (i : Nat) (w : World) : Moves i w w where
  toSteady := Steady.refl w
  gates := rfl
  fair h := h
  waits _ _ _ h := h

theorem Moves.trans {w₁ w₂ w₃ : World} (h₁ : Moves i w₁ w₂) (h₂ : Moves i w₂ w₃) :
    Moves i w₁ w₃ where
  toSteady := h₁.toSteady.trans h₂.toSteady
  gates := h₂.gates.trans h₁.gates
  fair h := h₂.fair (h₁.fair h)
  waits j hj k h := h₂.waits j hj k (h₁.waits j hj k h)

/-- Setting one semaphore to a state that keeps it closed or open, fair, and the other gates
    waiting. -/
theorem moves_setSem {s : Semaphore Nat} (hc : s.closed = (w.sems k).closed)
    (hf : (w.sems k).Fair → s.Fair) (hw : ∀ j, j ≠ i → (w.sems k).Waits j → s.Waits j) :
    Moves i w (w.setSem k s) where
  state := rfl
  version := rfl
  next_sem := rfl
  tx_dropped := rfl
  gates := rfl
  closed k' := by
    by_cases h : k' = k
    · subst h; simp [hc]
    · simp [h]
  fair hfair k' := by
    by_cases h : k' = k
    · subst h; simpa using hf (hfair k')
    · simpa [h] using hfair k'
  waits j hj k' h := by
    by_cases hk : k' = k
    · subst hk; simpa using hw j hj h
    · simpa [hk] using h

/-- A dropped permit goes back to its semaphore, which every gate's waiting survives. -/
theorem moves_drop_permit (p : Option Nat) : Moves i w (w.dropPermit p) := by
  cases p with
  | none => exact Moves.refl i w
  | some k =>
    exact moves_setSem (Semaphore.closed_release _) (fun h => h.release) (fun _ _ h => h.release)

theorem moves_opened_top : Moves i w (w.openedTop i).1 := by
  unfold openedTop
  split
  · exact Moves.refl i w
  · exact Moves.refl i w
  · rename_i k _
    have hc := Semaphore.closed_acquire (w.sems k) i
    have hf := fun h : (w.sems k).Fair => h.acquire i
    have hw := fun (j : Nat) (_ : j ≠ i) (h : (w.sems k).Waits j) => h.acquire i
    split <;> rename_i s hs <;> rw [hs] at hc hf hw
    · exact moves_setSem hc hf hw
    · exact moves_setSem hc hf hw
    · exact Moves.refl i w

theorem moves_changed_from (seen : Nat) : Moves i w (w.changedFrom i seen).1 := by
  unfold changedFrom
  split
  · exact Moves.refl i w
  · exact moves_opened_top

theorem moves_opened_poll (f : Opened) : Moves i w (w.openedPoll i f).1 := by
  cases f with
  | acquire k seen =>
    rw [openedPoll]
    have hc := Semaphore.closed_poll (w.sems k) i
    have hf := fun h : (w.sems k).Fair => h.poll i
    have hw := fun (j : Nat) (hj : j ≠ i) (h : (w.sems k).Waits j) => h.poll hj
    split <;> rename_i s hs <;> rw [hs] at hc hf hw
    · exact moves_setSem hc hf hw
    · exact Moves.refl i w
    · exact (moves_setSem (Semaphore.closed_cancel _ i) (fun h => h.cancel i)
        (fun _ hj h => h.cancel hj)).trans (moves_changed_from seen)
  | changed seen => exact moves_changed_from seen
  | stalled => exact Moves.refl i w

end World

/-! ### Counting permits -/

/-- One if `p` is a permit of semaphore `k`. -/
def charge (p : Option Nat) (k : Nat) : Nat := if p = some k then 1 else 0

/-- The permits of semaphore `k` a poll of `Rx::opened` hands out. -/
def OpenedPoll.taken (k : Nat) : OpenedPoll → Nat
  | .ready p => charge p k
  | .pending _ => 0

/-- Mapping after one entry of a list is changed in a way the map does not see. -/
theorem map_modify_of {α β : Type*} (m : α → β) (f : α → α) (hf : ∀ a, m (f a) = m a) :
    ∀ (l : List α) (i : Nat), (l.modify i f).map m = l.map m
  | [], _ => by simp
  | a :: l, 0 => by simp [hf]
  | a :: l, i + 1 => by simp [map_modify_of m f hf l i]

namespace World

variable {E : Type} {w : World} {i j k : Nat}

/-- The permits of semaphore `k` the live gates hold. -/
def held (w : World) (k : Nat) : Nat := w.gates.countP fun g => holding g = some k

/-- The permits of semaphore `k` in no one's hands or held by a gate. -/
def total (w : World) (k : Nat) : Nat := (w.sems k).free + w.held k

theorem gates_getElem (h : w.gate i = some g) : w.gates[i]? = some (some g) := by
  unfold gate at h
  cases hg : w.gates[i]? with
  | none => rw [hg] at h; cases h
  | some o => rw [hg] at h; cases o <;> simp_all

theorem held_of_holding {w' : World} (h : w'.gates.map holding = w.gates.map holding) :
    w'.held k = w.held k := by
  have := congrArg (List.countP fun p : Option Nat => decide (p = some k)) h
  simpa [held, List.countP_map, Function.comp_def] using this

@[simp] theorem held_setSem (s : Semaphore Nat) : (w.setSem j s).held k = w.held k := rfl

@[simp] theorem held_drop_permit (p : Option Nat) : (w.dropPermit p).held k = w.held k := by
  cases p <;> rfl

theorem held_updGate_of {f : Gate → Gate} (hf : ∀ g, (f g).permit = g.permit) :
    (w.updGate i f).held k = w.held k := by
  apply held_of_holding
  apply map_modify_of
  intro o
  cases o <;> simp [holding, hf]

/-- Changing gate `i`'s permit moves the count by the permits it held and now holds. -/
theorem held_updGate {g : Gate} (hg : w.gate i = some g) (f : Gate → Gate) :
    (w.updGate i f).held k + charge (holding (some g)) k =
      w.held k + charge (holding (some (f g))) k := by
  have := countP_modify (fun g => decide (holding g = some k)) (Option.map f) w.gates i (some g)
    (gates_getElem hg)
  simpa [held, charge, updGate] using this

/-- Setting semaphore `j` to one with `t` fewer permits in no one's hands. -/
theorem free_setSem {s : Semaphore Nat} {t : Nat} (hs : s.free + t = (w.sems j).free) (k : Nat) :
    ((w.setSem j s).sems k).free + (if j = k then t else 0) = (w.sems k).free := by
  by_cases h : j = k
  · subst h; simpa using hs
  · simp [h, Ne.symm h]

theorem free_drop_permit (p : Option Nat) (k : Nat) :
    ((w.dropPermit p).sems k).free = (w.sems k).free + charge p k := by
  cases p with
  | none => simp [dropPermit, charge]
  | some j =>
    by_cases h : j = k
    · subst h; simp [dropPermit, charge]
    · simp [dropPermit, charge, h, Ne.symm h]

theorem free_opened_top (k : Nat) :
    ((w.openedTop i).1.sems k).free + (w.openedTop i).2.taken k = (w.sems k).free := by
  unfold openedTop
  split
  · rfl
  · rfl
  · rename_i j _
    have hs := Semaphore.taken_acquire (w.sems j) i
    split <;> rename_i s hacq <;> rw [hacq] at hs
    · simpa [OpenedPoll.taken, charge, Acquire.taken, eq_comm] using free_setSem hs k
    · simpa [OpenedPoll.taken, Acquire.taken] using free_setSem hs k
    · rfl

theorem free_changed_from (seen k : Nat) :
    ((w.changedFrom i seen).1.sems k).free + (w.changedFrom i seen).2.taken k =
      (w.sems k).free := by
  unfold changedFrom
  split
  · rfl
  · exact free_opened_top k

theorem free_opened_poll (f : Opened) (k : Nat) :
    ((w.openedPoll i f).1.sems k).free + (w.openedPoll i f).2.taken k = (w.sems k).free := by
  cases f with
  | acquire j seen =>
    rw [openedPoll]
    have hs := Semaphore.taken_poll (w.sems j) i
    split <;> rename_i s hpoll <;> rw [hpoll] at hs
    · simpa [OpenedPoll.taken, charge, Acquire.taken, eq_comm] using free_setSem hs k
    · rfl
    · rw [free_changed_from]
      simpa using free_setSem (t := 0) (by simp) k
  | changed seen => exact free_changed_from seen k
  | stalled => rfl

theorem total_settle (r : World × OpenedPoll) (k : Nat) :
    (settle i r).1.total k + charge (settle i r).2.join k = r.1.total k + r.2.taken k := by
  obtain ⟨w, p | f⟩ := r
  · simp [settle, total, OpenedPoll.taken, held_updGate_of]
  · simp [settle, total, OpenedPoll.taken, held_updGate_of, charge]

/-- **Acquiring hands out what it takes.**  The permits `poll_acquire` returns are the ones
    that left their semaphore. -/
theorem total_poll_acquire (g : Gate) (k : Nat) :
    (w.pollAcquire i g).1.total k + charge (w.pollAcquire i g).2.join k = w.total k := by
  have settled : ∀ r : World × OpenedPoll, r.1.gates = w.gates →
      (r.1.sems k).free + r.2.taken k = (w.sems k).free →
      (settle i r).1.total k + charge (settle i r).2.join k = w.total k := by
    intro r hg hf
    have hheld : r.1.held k = w.held k := held_of_holding (by rw [hg])
    rw [total_settle, total, hheld, total]
    omega
  unfold pollAcquire
  split
  · rename_i f _
    exact settled _ (moves_opened_poll f).gates (free_opened_poll f k)
  · split
    · simp [charge]
    · rename_i j _
      split
      · rename_i s hs
        have hf := free_setSem (t := 1) (by simpa using Semaphore.free_try_acquire hs) k
        by_cases h : j = k
        · subst h
          simp [total, charge] at hf ⊢
          omega
        · simp [total, charge, h] at hf ⊢
          omega
      · exact settled _ moves_opened_top.gates (free_opened_top k)
    · exact settled _ moves_opened_top.gates (free_opened_top k)

end World

/-! ### What every reachable world admits -/

/-- Where gate `i`'s `opened` future waits, something will wake it: waiting for a permit, it was
    read at a version that a change of state moves past and is queued or granted while the
    semaphore is open; waiting for a change, a newer version exists unless the gate is shut;
    waiting for ever, the gate is shut and no `Tx` is left. -/
def Opened.Wakes (w : World) (i : Nat) : Opened → Prop
  | .acquire k seen =>
    k < w.next_sem ∧ seen ≤ w.version ∧ (w.state ≠ .Limited k → seen < w.version) ∧
      ((w.sems k).closed = false → (w.sems k).Waits i)
  | .changed seen => seen ≤ w.version ∧ (w.state = .Shut ∨ seen < w.version)
  | .stalled => w.state = .Shut ∧ w.tx_dropped = true

/-- A gate holds a permit only of a semaphore that was made, and its future will be woken. -/
structure GateOk (w : World) (i : Nat) (g : Gate) : Prop where
  permit : ∀ k, holding (some g) = some k → k < w.next_sem
  future : ∀ f, g.acquire = some f → f.Wakes w i

/-- A semaphore is open exactly while it is the state's, and the state's was made. -/
structure SemOpen (w : World) : Prop where
  sem_open : ∀ k, k < w.next_sem → ((w.sems k).closed = false ↔ w.state = .Limited k)
  state_sem : ∀ k, w.state = .Limited k → k < w.next_sem

/-- **The gate world's invariant.**  A semaphore is open exactly while it is the state's, every
    semaphore is fair, and every live gate is well placed. -/
structure Admits (w : World) : Prop extends SemOpen w where
  fair : ∀ k, (w.sems k).Fair
  gates : ∀ i g, w.gate i = some g → GateOk w i g

open World

section Admits

variable {E : Type} {w : World} {i j k : Nat}

theorem Opened.Wakes.moves {f : Opened} {w' : World} (h : f.Wakes w j) (hm : Moves i w w')
    (hw : ∀ k, (w.sems k).Waits j → (w'.sems k).Waits j) : f.Wakes w' j := by
  cases f with
  | acquire k seen =>
    obtain ⟨hk, hseen, hnew, hwaits⟩ := h
    refine ⟨hm.next_sem ▸ hk, hm.version ▸ hseen, ?_, ?_⟩
    · rw [hm.state, hm.version]; exact hnew
    · rw [hm.closed]; exact fun hc => hw k (hwaits hc)
  | changed seen =>
    rw [Opened.Wakes, hm.state, hm.version]; exact h
  | stalled =>
    rw [Opened.Wakes, hm.state, hm.tx_dropped]; exact h

theorem GateOk.moves {g : Gate} {w' : World} (h : GateOk w j g) (hm : Moves i w w')
    (hw : ∀ k, (w.sems k).Waits j → (w'.sems k).Waits j) : GateOk w' j g where
  permit k hk := hm.next_sem ▸ h.permit k hk
  future f hf := Opened.Wakes.moves (h.future f hf) hm hw

theorem SemOpen.moves {w' : World} (hs : SemOpen w) (hm : Moves i w w') : SemOpen w' where
  sem_open k hk := by rw [hm.closed, hm.state]; exact hs.sem_open k (hm.next_sem ▸ hk)
  state_sem k hk := hm.next_sem ▸ hs.state_sem k (hm.state ▸ hk)

/-- A change of the semaphores only that keeps gate `i` well placed keeps the invariant. -/
theorem Admits.moves {w' : World} (ha : Admits w) (hm : Moves i w w')
    (hi : ∀ g, w'.gate i = some g → GateOk w' i g) : Admits w' where
  toSemOpen := ha.toSemOpen.moves hm
  fair := hm.fair ha.fair
  gates j g hg := by
    by_cases hji : j = i
    · subst hji; exact hi g hg
    · rw [gate_of_gates hm.gates] at hg
      exact (ha.gates j g hg).moves hm (hm.waits j hji)

/-- A dropped permit goes to its semaphore's oldest waiter, or becomes free: every gate still
    waits where it waited. -/
theorem waits_drop_permit (p : Option Nat) (h : (w.sems k).Waits j) :
    ((w.dropPermit p).sems k).Waits j := by
  cases p with
  | none => exact h
  | some k' =>
    by_cases hk : k = k'
    · subst hk; simpa [World.dropPermit] using h.release
    · simpa [World.dropPermit, hk] using h

theorem Admits.dropPermit (ha : Admits w) (p : Option Nat) : Admits (w.dropPermit p) := by
  have hm : Moves 0 w (w.dropPermit p) := moves_drop_permit p
  refine ha.moves hm fun g hg => ?_
  rw [gate_of_gates hm.gates] at hg
  exact (ha.gates 0 g hg).moves hm fun _ => waits_drop_permit p

/-- Changing a live gate's record in a way that leaves it well placed keeps the invariant. -/
theorem Admits.updGate {f : Gate → Gate} (ha : Admits w)
    (hf : ∀ g, w.gate i = some g → GateOk w i (f g)) : Admits (w.updGate i f) where
  toSemOpen := ⟨ha.sem_open, ha.state_sem⟩
  fair := ha.fair
  gates j g hg := by
    by_cases hij : i = j
    · subst hij
      rw [gate_updGate_self] at hg
      obtain ⟨g₀, hg₀, rfl⟩ := Option.map_eq_some_iff.mp hg
      exact ⟨(hf g₀ hg₀).permit, (hf g₀ hg₀).future⟩
    · rw [gate_updGate_ne f hij] at hg
      exact ⟨(ha.gates j g hg).permit, (ha.gates j g hg).future⟩

/-! #### One poll of a gate's future -/

theorem wakes_wait_changed {seen : Nat} (hshut : w.state = .Shut) (hle : seen ≤ w.version) :
    (w.waitChanged seen).Wakes w i := by
  unfold waitChanged
  by_cases htx : w.tx_dropped = true
  · rw [if_pos htx]; exact ⟨hshut, htx⟩
  · rw [if_neg htx]; exact ⟨hle, .inl hshut⟩

theorem wakes_opened_top (hs : SemOpen w) {f : Opened} (hf : (w.openedTop i).2 = .pending f) :
    f.Wakes (w.openedTop i).1 i := by
  unfold openedTop at hf ⊢
  split at hf
  · cases hf
  · rename_i hshut
    cases hf
    exact wakes_wait_changed hshut (Nat.le_refl _)
  · rename_i k hlim
    have hk := hs.state_sem k hlim
    generalize hr : (w.sems k).acquire i = r at hf ⊢
    obtain ⟨s, _ | _ | _⟩ := r <;> dsimp only at hf ⊢
    · cases hf
    · cases hf
      have hw := Semaphore.waits_acquire (s := w.sems k) (w := i) (by rw [hr])
      rw [hr] at hw
      exact ⟨hk, Nat.le_refl _, fun hne => absurd hlim hne, fun _ => by simpa using hw⟩
    · have hcl := Semaphore.acquire_closed (s := w.sems k) (w := i) (by rw [hr])
      have := (hs.sem_open k hk).mpr hlim
      simp [hcl] at this

theorem wakes_changed_from {seen : Nat} (hs : SemOpen w) (hle : seen ≤ w.version)
    (hnew : w.state = .Shut ∨ seen < w.version) {f : Opened}
    (hf : (w.changedFrom i seen).2 = .pending f) : f.Wakes (w.changedFrom i seen).1 i := by
  unfold changedFrom at hf ⊢
  by_cases hv : w.version = seen
  · rw [if_pos hv] at hf ⊢
    cases hf
    exact wakes_wait_changed (hnew.resolve_right (by omega)) hle
  · rw [if_neg hv] at hf ⊢
    exact wakes_opened_top hs hf

theorem wakes_opened_poll (hs : SemOpen w) {f f' : Opened} (hw : f.Wakes w i)
    (hf : (w.openedPoll i f).2 = .pending f') : f'.Wakes (w.openedPoll i f).1 i := by
  cases f with
  | acquire k seen =>
    obtain ⟨hk, hle, hnew, hwaits⟩ := hw
    rw [openedPoll] at hf ⊢
    generalize hr : (w.sems k).poll i = r at hf ⊢
    obtain ⟨s, _ | _ | _⟩ := r <;> dsimp only at hf ⊢
    · cases hf
    · cases hf
      exact ⟨hk, hle, hnew, hwaits⟩
    · -- a closed semaphore: the state has moved on since `seen`
      have hcl := Semaphore.poll_closed (s := w.sems k) (w := i) (by rw [hr])
      have hnot : w.state ≠ .Limited k := fun h => by
        have := (hs.sem_open k hk).mpr h
        simp [hcl] at this
      have hm : Moves i w (w.setSem k ((w.sems k).cancel i)) :=
        moves_setSem (Semaphore.closed_cancel _ i) (fun h => h.cancel i) fun _ hj h => h.cancel hj
      exact wakes_changed_from (hs.moves hm) hle (.inr (hnew hnot)) hf
  | changed seen => exact wakes_changed_from hs hw.1 hw.2 hf
  | stalled =>
    rw [openedPoll] at hf ⊢
    cases hf
    exact hw

/-! #### What a poll admits -/

theorem admits_opened_top {p : Option Nat} (hp : (w.openedTop i).2 = .ready p) :
    w.state.admits p := by
  unfold openedTop at hp
  split at hp
  · rename_i hopen
    cases hp
    simp [hopen, State.admits]
  · cases hp
  · rename_i k hlim
    generalize hr : (w.sems k).acquire i = r at hp
    obtain ⟨s, _ | _ | _⟩ := r <;> dsimp only at hp
    · cases hp
      simp [hlim, State.admits]
    · cases hp
    · cases hp

theorem admits_changed_from {seen : Nat} {p : Option Nat}
    (hp : (w.changedFrom i seen).2 = .ready p) : w.state.admits p := by
  unfold changedFrom at hp
  by_cases hv : w.version = seen
  · rw [if_pos hv] at hp; cases hp
  · rw [if_neg hv] at hp; exact admits_opened_top hp

theorem admits_opened_poll (hs : SemOpen w) {f : Opened} (hw : f.Wakes w i) {p : Option Nat}
    (hp : (w.openedPoll i f).2 = .ready p) : w.state.admits p := by
  cases f with
  | acquire k seen =>
    rw [openedPoll] at hp
    generalize hr : (w.sems k).poll i = r at hp
    obtain ⟨s, _ | _ | _⟩ := r <;> dsimp only at hp
    · -- a permit is taken only from an open semaphore, the state's
      cases hp
      have hopen := Semaphore.pollReady (s := w.sems k) (w := i) (by rw [hr])
      simp [(hs.sem_open k hw.1).mp hopen, State.admits]
    · cases hp
    · simpa using admits_changed_from hp
  | changed seen => exact admits_changed_from hp
  | stalled => simp [openedPoll] at hp

theorem settle_ready {r : World × OpenedPoll} {p : Option Nat} (h : (settle i r).2 = some p) :
    r.2 = .ready p := by
  obtain ⟨w, p' | f⟩ := r
  · cases h; rfl
  · cases h

/-- **What `poll_acquire` admits.**  It returns a permit, or none, only as the state admits. -/
theorem admits_poll_acquire (hs : SemOpen w) {g : Gate} (hg : GateOk w i g) {p : Option Nat}
    (hp : (w.pollAcquire i g).2 = some p) : w.state.admits p := by
  unfold pollAcquire at hp
  split at hp
  · rename_i f hf
    exact admits_opened_poll hs (hg.future f hf) (settle_ready hp)
  · split at hp
    · rename_i hopen
      cases hp
      simp [hopen, State.admits]
    · rename_i k hlim
      split at hp
      · cases hp
        simp [hlim, State.admits]
      · exact admits_opened_top (settle_ready hp)
    · exact admits_opened_top (settle_ready hp)

theorem steady_settle (r : World × OpenedPoll) : Steady r.1 (settle i r).1 := by
  obtain ⟨w, p | f⟩ := r <;> exact steady_updGate _

theorem steady_poll_acquire (g : Gate) : Steady w (w.pollAcquire i g).1 := by
  unfold pollAcquire
  split
  · exact (moves_opened_poll _).toSteady.trans (steady_settle _)
  · split
    · exact Steady.refl w
    · rename_i k _
      split
      · rename_i s hs
        refine ⟨rfl, rfl, rfl, rfl, fun k' => ?_⟩
        show (Function.update w.sems k s k').closed = (w.sems k').closed
        by_cases h : k' = k
        · subst h; simpa using Semaphore.closed_try_acquire hs
        · simp [h]
      · exact moves_opened_top.toSteady.trans (steady_settle _)
    · exact moves_opened_top.toSteady.trans (steady_settle _)

theorem GateOk.updGate {g : Gate} (h : GateOk w j g) (f : Gate → Gate) :
    GateOk (w.updGate i f) j g :=
  ⟨h.permit, h.future⟩

/-- Replacing gate `i`'s record after a move of the semaphores, keeping its permit and with a
    future that will be woken, keeps the invariant. -/
theorem Admits.replace {w' : World} {g : Gate} {f : Gate → Gate} (ha : Admits w)
    (hm : Moves i w w') (hg : w.gate i = some g) (hperm : (f g).permit = g.permit)
    (hfut : ∀ o, (f g).acquire = some o → o.Wakes w' i) : Admits (w'.updGate i f) where
  toSemOpen := ⟨(ha.toSemOpen.moves hm).sem_open, (ha.toSemOpen.moves hm).state_sem⟩
  fair := hm.fair ha.fair
  gates j g' hg' := by
    by_cases hij : i = j
    · subst hij
      rw [gate_updGate_self, gate_of_gates hm.gates, hg] at hg'
      cases hg'
      refine ⟨fun k hk => ?_, hfut⟩
      have hk' : holding (some g) = some k := by simpa [holding, hperm] using hk
      exact hm.next_sem ▸ (ha.gates i g hg).permit k hk'
    · rw [gate_updGate_ne f hij, gate_of_gates hm.gates] at hg'
      exact ((ha.gates j g' hg').moves hm (hm.waits j (Ne.symm hij))).updGate f

theorem Admits.settle {r : World × OpenedPoll} {g : Gate} (ha : Admits w) (hg : w.gate i = some g)
    (hm : Moves i w r.1) (hp : ∀ f, r.2 = .pending f → f.Wakes r.1 i) : Admits (settle i r).1 := by
  obtain ⟨w', p | f⟩ := r
  · exact ha.replace hm hg rfl fun o ho => by cases ho
  · refine ha.replace hm hg rfl fun o ho => ?_
    cases ho
    exact hp f rfl

theorem Admits.pollAcquire {g : Gate} (ha : Admits w) (hg : w.gate i = some g) :
    Admits (w.pollAcquire i g).1 := by
  have hok := ha.gates i g hg
  unfold World.pollAcquire
  split
  · rename_i f hf
    exact ha.settle hg (moves_opened_poll f) fun f' => wakes_opened_poll ha.toSemOpen (hok.future f hf)
  · rename_i hnone
    split
    · exact ha
    · rename_i k _
      split
      · rename_i s hs
        have hm : Moves i w (w.setSem k s) :=
          moves_setSem (Semaphore.closed_try_acquire hs) (fun h => h.tryAcquire hs)
            fun _ _ h => h.tryAcquire hs
        refine ha.moves hm fun g' hg' => ?_
        rw [gate_of_gates hm.gates, hg] at hg'
        cases hg'
        exact ⟨fun k hk => hok.permit k hk, fun f hf => by rw [hnone] at hf; cases hf⟩
      · exact ha.settle hg moves_opened_top fun f => wakes_opened_top ha.toSemOpen
    · exact ha.settle hg moves_opened_top fun f => wakes_opened_top ha.toSemOpen

theorem gate_unhold {g : Gate} (hg : w.gate i = some g) :
    (w.unhold i g).gate i = some { g with permit := none } := by
  rw [unhold, gate_updGate_self, gate_of_gates (drop_permit_gates _), hg]
  rfl

theorem Admits.unhold (ha : Admits w) (g : Gate) : Admits (w.unhold i g) := by
  have hd := ha.dropPermit (holding (some g))
  refine hd.updGate fun g₀ hg₀ => ⟨fun k hk => by simp [holding] at hk, ?_⟩
  exact (hd.gates i g₀ hg₀).future

theorem Admits.readyInner {p : Option Nat} (ha : Admits w) (inner : Readiness E)
    (hp : ∀ k, p = some k → k < w.next_sem) : Admits (readyInner i inner (w, some p)).1 := by
  cases inner with
  | ready =>
    exact ha.updGate fun g hg => ⟨fun k hk => hp k (by simpa [holding] using hk),
      (ha.gates i g hg).future⟩
  | pending => exact ha.dropPermit p
  | failed e => exact ha.dropPermit p

/-- A permit the state admits is one of a semaphore that was made. -/
theorem SemOpen.admits_made (hs : SemOpen w) {p : Option Nat} (hp : w.state.admits p) :
    ∀ k, p = some k → k < w.next_sem := by
  intro k hk
  subst hk
  cases hst : w.state with
  | Open => simp [hst, State.admits] at hp
  | Limited k' =>
    simp only [hst, State.admits, decide_eq_true_eq] at hp
    subst hp
    exact hs.state_sem _ hst
  | Shut => simp [hst, State.admits] at hp

theorem Admits.pollReady (ha : Admits w) (i : Nat) (inner : Readiness E) :
    Admits (w.pollReady i inner).1 := by
  unfold World.pollReady
  split
  · exact ha
  · rename_i g hg
    have h₁ := ha.unhold (i := i) g
    have hg₁ := gate_unhold hg
    have h₂ := h₁.pollAcquire hg₁
    have hst := steady_poll_acquire (w := w.unhold i g) (i := i) { g with permit := none }
    generalize hr : (w.unhold i g).pollAcquire i { g with permit := none } = r at h₂ hst
    obtain ⟨w₂, _ | p⟩ := r
    · exact h₂
    · have hp := admits_poll_acquire h₁.toSemOpen (h₁.gates i _ hg₁) (by rw [hr])
      refine h₂.readyInner inner fun k hk => ?_
      rw [hst.next_sem]
      exact h₁.toSemOpen.admits_made hp k hk

/-! #### The other events -/

theorem GateOk.with_gates {g : Gate} (h : GateOk w j g) (gs : List (Option Gate)) :
    GateOk { w with gates := gs } j g :=
  ⟨h.permit, h.future⟩

theorem Admits.call (ha : Admits w) (i : Nat) : Admits (w.call i : World × List (Out E)).1 := by
  unfold World.call
  split
  · exact ha
  · split
    · exact ha
    · exact ha.updGate fun g hg =>
        ⟨fun k hk => by simp [holding] at hk, (ha.gates i g hg).future⟩

theorem Admits.clone (ha : Admits w) (i : Nat) : Admits (w.clone i) := by
  unfold World.clone
  split
  · exact ha
  · refine ⟨⟨ha.sem_open, ha.state_sem⟩, ha.fair, fun j g hg => ?_⟩
    simp only [gate] at hg
    by_cases hj : j < w.gates.length
    · rw [List.getElem?_append_left hj] at hg
      exact (ha.gates j g hg).with_gates _
    · rw [List.getElem?_append_right (by omega)] at hg
      -- the clone: a new gate, holding nothing and waiting for nothing
      have hg' : g = Gate.new := by
        cases h : j - w.gates.length with
        | zero => simpa [h, Eq.comm] using hg
        | succ m => simp [h] at hg
      subst hg'
      exact ⟨fun k hk => by simp [holding, Gate.new] at hk, fun f hf => by cases hf⟩

theorem Admits.drop (ha : Admits w) (i : Nat) : Admits (w.drop i) := by
  unfold World.drop
  split
  · exact ha
  · rename_i g hg
    have hm₁ : Moves i w (w.dropFuture i g.acquire) := by
      unfold dropFuture
      split
      · exact moves_setSem (Semaphore.closed_cancel _ i) (fun h => h.cancel i)
          fun _ hj h => h.cancel hj
      · exact Moves.refl i w
    have hm : Moves i w ((w.dropFuture i g.acquire).dropPermit (holding (some g))) :=
      hm₁.trans (moves_drop_permit _)
    refine ⟨⟨(ha.toSemOpen.moves hm).sem_open, (ha.toSemOpen.moves hm).state_sem⟩,
      hm.fair ha.fair, fun j g' hg' => ?_⟩
    -- the dropped gate is gone; the others wait where they waited
    simp only [gate, List.getElem?_set] at hg'
    by_cases hij : i = j
    · simp [hij] at hg'
      split at hg' <;> cases hg'
    · rw [if_neg hij] at hg'
      exact ((ha.gates j g' hg').moves hm (hm.waits j (Ne.symm hij))).with_gates _

@[simp] theorem send_replace_state (st : State) : (w.send_replace st).state = st := by
  unfold send_replace; split <;> rfl
@[simp] theorem send_replace_version (st : State) :
    (w.send_replace st).version = w.version + 1 := by
  unfold send_replace; split <;> rfl
@[simp] theorem send_replace_next_sem (st : State) :
    (w.send_replace st).next_sem = w.next_sem := by
  unfold send_replace; split <;> rfl
@[simp] theorem send_replace_gates (st : State) : (w.send_replace st).gates = w.gates := by
  unfold send_replace; split <;> rfl
@[simp] theorem send_replace_tx_dropped (st : State) :
    (w.send_replace st).tx_dropped = w.tx_dropped := by
  unfold send_replace; split <;> rfl

/-- A send closes the semaphore of the state it replaces, and no other. -/
theorem send_replace_sems (st : State) (k : Nat) :
    (w.send_replace st).sems k = if w.state = .Limited k then (w.sems k).close else w.sems k := by
  unfold send_replace
  split
  · rename_i j hj
    by_cases h : k = j
    · subst h; simp [hj]
    · simp [hj, h, Ne.symm h]
  · rename_i hnot
    simp only
    rw [if_neg fun h => hnot _ h]

/-- **A send of a new state keeps the invariant**, from a world whose open semaphores are the
    old state's and the new one's, where the new state is not the old one's semaphore. -/
theorem Admits.send_replace {st : State} (htx : w.tx_dropped = false)
    (hsem : ∀ k, k < w.next_sem →
      ((w.sems k).closed = false ↔ (w.state = .Limited k ∨ st = .Limited k)))
    (hne : ∀ k, w.state = .Limited k → st ≠ .Limited k)
    (hst : ∀ k, st = .Limited k → k < w.next_sem) (hfair : ∀ k, (w.sems k).Fair)
    (hgates : ∀ j g, w.gate j = some g → GateOk w j g) : Admits (w.send_replace st) where
  sem_open k hk := by
    rw [send_replace_sems, send_replace_state]
    rw [send_replace_next_sem] at hk
    by_cases hold : w.state = .Limited k
    · simp only [hold, if_true, Semaphore.close, Bool.true_eq_false, false_iff]
      exact hne k hold
    · rw [if_neg hold, hsem k hk]
      simp [hold]
  state_sem k hk := by
    rw [send_replace_next_sem]
    exact hst k (by simpa using hk)
  fair k := by
    rw [send_replace_sems]
    split
    · exact Semaphore.Fair.close
    · exact hfair k
  gates j g hg := by
    rw [gate_of_gates (send_replace_gates st)] at hg
    have hok := hgates j g hg
    refine ⟨fun k hk => by simpa using hok.permit k hk, fun f hf => ?_⟩
    have hw := hok.future f hf
    cases f with
    | acquire k seen =>
      obtain ⟨hk, hle, -, hwaits⟩ := hw
      refine ⟨by simpa using hk, by rw [send_replace_version]; omega,
        fun _ => by rw [send_replace_version]; omega, fun hc => ?_⟩
      rw [send_replace_sems] at hc ⊢
      by_cases hold : w.state = .Limited k
      · simp [hold, Semaphore.close] at hc
      · rw [if_neg hold] at hc ⊢
        exact hwaits hc
    | changed seen =>
      obtain ⟨hle, -⟩ := hw
      exact ⟨by rw [send_replace_version]; omega, .inr (by rw [send_replace_version]; omega)⟩
    | stalled =>
      obtain ⟨-, htx'⟩ := hw
      rw [htx] at htx'
      cases htx'

theorem Admits.send (ha : Admits w) (htx : w.tx_dropped = false) {st : State}
    (hst : ∀ k, st ≠ .Limited k) : Admits (w.send st : World × List (Out E)).1 := by
  unfold World.send
  split
  · exact ha
  · refine Admits.send_replace htx (fun k hk => ?_) (fun k _ => hst k) (fun k h => absurd h (hst k))
      ha.fair ha.gates
    simp [ha.sem_open k hk, hst k]

theorem Admits.limit (ha : Admits w) (htx : w.tx_dropped = false) (n : Nat) :
    Admits (w.limit n : World × List (Out E)).1 := by
  unfold World.limit
  split
  · exact ha
  · -- the new semaphore is open, as the old state's still is
    dsimp only
    refine Admits.send_replace
      (w := { w.setSem w.next_sem (Semaphore.new n) with next_sem := w.next_sem + 1 }) htx
      ?_ ?_ ?_ ?_ ?_
    · intro k hk
      simp only [setSem_sems] at hk ⊢
      by_cases h : k = w.next_sem
      · subst h; simp [Semaphore.new]
      · have hk' : k < w.next_sem := by simp at hk; omega
        simp [h, ha.sem_open k hk', Ne.symm h]
    · intro k hk heq
      cases heq
      have := ha.state_sem _ hk
      simp at this
    · intro k hk
      cases hk
      simp
    · intro k
      simp only [setSem_sems]
      by_cases h : k = w.next_sem
      · subst h; simpa using Semaphore.fair_new n
      · simpa [h] using ha.fair k
    · intro j g hg
      have hok := ha.gates j g (by simpa [gate] using hg)
      refine ⟨fun k hk => by have := hok.permit k hk; simp; omega, fun f hf => ?_⟩
      have hw := hok.future f hf
      cases f with
      | acquire k seen =>
        obtain ⟨hk, hle, hnew, hwaits⟩ := hw
        have hne : k ≠ w.next_sem := by omega
        exact ⟨by simp; omega, hle, hnew, by simpa [hne] using hwaits⟩
      | changed seen => exact hw
      | stalled => exact hw

theorem Admits.drop_tx (ha : Admits w) : Admits { w with tx_dropped := true } where
  toSemOpen := ⟨ha.sem_open, ha.state_sem⟩
  fair := ha.fair
  gates j g hg := by
    have hok := ha.gates j g hg
    refine ⟨hok.permit, fun f hf => ?_⟩
    have hw := hok.future f hf
    cases f with
    | acquire k seen => exact hw
    | changed seen => exact hw
    | stalled => exact ⟨hw.1, rfl⟩

/-- **Every step keeps the invariant.** -/
theorem Admits.step (ha : Admits w) (e : Event E) : Admits (w.step e).1 := by
  cases e with
  | pollReady i inner => exact ha.pollReady i inner
  | call i => exact ha.call i
  | clone i => exact ha.clone i
  | drop i => exact ha.drop i
  | «open» =>
    simp only [World.step]
    split
    · exact ha
    · next htx => exact ha.send (by simpa using htx) fun k h => by cases h
  | limit n =>
    simp only [World.step]
    split
    · exact ha
    · next htx => exact ha.limit (by simpa using htx) n
  | shut =>
    simp only [World.step]
    split
    · exact ha
    · next htx => exact ha.send (by simpa using htx) fun k h => by cases h
  | drop_tx => exact ha.drop_tx

theorem admits_channel : Admits channel where
  toSemOpen := ⟨fun k hk => by simp [channel] at hk, fun k hk => by simp [channel] at hk⟩
  fair _ := Semaphore.fair_new 0
  gates i g hg := by
    unfold channel at hg
    simp only [gate] at hg
    rcases i with _ | i
    · simp at hg
      subst hg
      exact ⟨fun k hk => by simp [holding, Gate.new] at hk, fun f hf => by cases hf⟩
    · simp at hg

end Admits

/-! ### Permits are conserved -/

/-- The permits of semaphore `k`, as the `limit` that made it returned them. -/
def Out.made {E : Type} (k : Nat) : Out E → Option Nat
  | .limited j n => if j = k then some n else none
  | _ => none

/-- A call that forgot a permit of semaphore `k`. -/
def Out.forgets {E : Type} (k : Nat) : Out E → Bool
  | .called _ (some j) => j = k
  | _ => false

/-- The permits semaphore `k` was made with, as a trace shows them. -/
def made {E : Type} (k : Nat) (os : List (Out E)) : Option Nat := os.findSome? (Out.made k)

/-- The calls of a trace that forgot a permit of semaphore `k`. -/
def forgotten {E : Type} (k : Nat) (os : List (Out E)) : Nat := os.countP (Out.forgets k)

/-- **The ledger.**  Every semaphore made has all its permits accounted for: in no one's hands,
    held by a ready gate, or forgotten by a call; no trace names a semaphore not yet made. -/
structure Ledger {E : Type} (os : List (Out E)) (w : World) : Prop where
  made_sem : ∀ k, k < w.next_sem → made k os = some (w.total k + forgotten k os)
  unmade : ∀ k, w.next_sem ≤ k → made k os = none ∧ forgotten k os = 0

/-- A step that makes no semaphore and moves no permit but by the calls it shows. -/
structure Conserves {E : Type} (w w' : World) (ys : List (Out E)) : Prop where
  next_sem : w'.next_sem = w.next_sem
  none_made : ∀ k, made k ys = none
  total : ∀ k, w'.total k + forgotten k ys = w.total k
  unmade : ∀ k, w.next_sem ≤ k → forgotten k ys = 0

section Ledger

variable {E : Type} {w : World} {i j k : Nat}

@[simp] theorem made_append (os ys : List (Out E)) :
    made k (os ++ ys) = (made k os).or (made k ys) := List.findSome?_append

@[simp] theorem forgotten_append (os ys : List (Out E)) :
    forgotten k (os ++ ys) = forgotten k os + forgotten k ys := List.countP_append

theorem Ledger.conserve {os ys : List (Out E)} {w' : World} (hl : Ledger os w)
    (hc : Conserves w w' ys) : Ledger (os ++ ys) w' where
  made_sem k hk := by
    rw [hc.next_sem] at hk
    have := hc.total k
    rw [made_append, hl.made_sem k hk, hc.none_made k, forgotten_append]
    simp only [Option.some_or, Option.some.injEq]
    omega
  unmade k hk := by
    rw [hc.next_sem] at hk
    obtain ⟨h₁, h₂⟩ := hl.unmade k hk
    rw [made_append, h₁, hc.none_made k, forgotten_append, h₂, hc.unmade k hk]
    exact ⟨rfl, rfl⟩

/-- Outputs that neither make a semaphore nor forget a permit. -/
def Quiet (ys : List (Out E)) : Prop := ∀ y ∈ ys, ∀ k, y.made k = none ∧ y.forgets k = false

theorem Quiet.made {ys : List (Out E)} (h : Quiet ys) (k : Nat) : made k ys = none :=
  List.findSome?_eq_none_iff.mpr fun y hy => (h y hy k).1

theorem Quiet.forgotten {ys : List (Out E)} (h : Quiet ys) (k : Nat) : forgotten k ys = 0 :=
  List.countP_eq_zero.mpr fun y hy => by simp [(h y hy k).2]

/-- A quiet step that keeps every semaphore's permits. -/
theorem Quiet.conserves {ys : List (Out E)} {w' : World} (h : Quiet ys)
    (hn : w'.next_sem = w.next_sem) (ht : ∀ k, w'.total k = w.total k) : Conserves w w' ys where
  next_sem := hn
  none_made := h.made
  total k := by rw [h.forgotten, ht, Nat.add_zero]
  unmade k _ := h.forgotten k

theorem quiet_single {y : Out E} (hy : ∀ k, y.made k = none ∧ y.forgets k = false) :
    Quiet [y] := by
  intro y' hy'
  rw [List.mem_singleton] at hy'
  subst hy'
  exact hy

theorem quiet_pending (i : Nat) : Quiet [(Out.pending i : Out E)] :=
  quiet_single fun _ => ⟨rfl, rfl⟩

/-! #### Each event's permits -/

theorem total_drop_permit (p : Option Nat) (k : Nat) :
    (w.dropPermit p).total k = w.total k + charge p k := by
  simp only [total, held_drop_permit, free_drop_permit]
  omega

/-- Changing gate `i`'s record moves the count by the permit it held and the one it now holds. -/
theorem total_updGate {g : Gate} (hg : w.gate i = some g) (f : Gate → Gate) (k : Nat) :
    (w.updGate i f).total k + charge g.permit.join k = w.total k + charge (f g).permit.join k := by
  have := held_updGate (k := k) hg f
  simp only [holding, Option.bind_some] at this
  simp only [total, updGate_sems]
  omega

theorem total_unhold {g : Gate} (hg : w.gate i = some g) (k : Nat) :
    (w.unhold i g).total k = w.total k := by
  have h₁ : (w.dropPermit (holding (some g))).total k = w.total k + charge g.permit.join k :=
    total_drop_permit _ k
  have h₂ := total_updGate (w := w.dropPermit (holding (some g))) (k := k)
    (by rw [gate_of_gates (drop_permit_gates _)]; exact hg) fun g => { g with permit := none }
  change _ + charge g.permit.join k = _ + 0 at h₂
  rw [unhold]
  omega

theorem permit_poll_acquire (g : Gate) (j : Nat) :
    ((w.pollAcquire i g).1.gate j).map Gate.permit = (w.gate j).map Gate.permit := by
  have settled : ∀ r : World × OpenedPoll, r.1.gates = w.gates →
      ((settle i r).1.gate j).map Gate.permit = (w.gate j).map Gate.permit := by
    intro r hr
    obtain ⟨w', p | f⟩ := r <;>
    · simp only [settle, gate_updGate]
      rw [gate_of_gates hr]
      split <;> simp [Option.map_map, Function.comp_def]
  unfold World.pollAcquire
  split
  · exact settled _ (moves_opened_poll _).gates
  · split
    · rfl
    · split
      · rfl
      · exact settled _ moves_opened_top.gates
    · exact settled _ moves_opened_top.gates

theorem total_poll_ready (i : Nat) (inner : Readiness E) (k : Nat) :
    (w.pollReady i inner).1.total k = w.total k := by
  unfold World.pollReady
  split
  · rfl
  · rename_i g hg
    have h₁ := total_unhold hg k
    have h₂ := total_poll_acquire (w := w.unhold i g) (i := i) { g with permit := none } k
    have hperm := permit_poll_acquire (w := w.unhold i g) (i := i) { g with permit := none } i
    rw [gate_unhold hg] at hperm
    generalize hr : (w.unhold i g).pollAcquire i { g with permit := none } = r at h₂ hperm
    obtain ⟨w₂, _ | p⟩ := r
    · -- nothing acquired, nothing kept
      change w₂.total k + 0 = _ at h₂
      show w₂.total k = _
      omega
    · change w₂.total k + charge p k = _ at h₂
      obtain ⟨g₂, hg₂, hg₂p⟩ : ∃ g₂, w₂.gate i = some g₂ ∧ g₂.permit = none := by
        cases h : w₂.gate i with
        | none => rw [h] at hperm; cases hperm
        | some g₂ => rw [h] at hperm; exact ⟨g₂, rfl, by simpa using hperm⟩
      cases inner with
      | ready =>
        -- the permit goes into the gate's hands
        have h₃ := total_updGate (k := k) hg₂ fun g => { g with permit := some p }
        rw [hg₂p] at h₃
        change _ + 0 = _ + charge p k at h₃
        show (w₂.updGate i _).total k = _
        omega
      | pending =>
        -- the permit is dropped, back to its semaphore
        show (w₂.dropPermit p).total k = _
        rw [total_drop_permit]
        omega
      | failed e =>
        show (w₂.dropPermit p).total k = _
        rw [total_drop_permit]
        omega

theorem quiet_poll_ready (i : Nat) (inner : Readiness E) : Quiet (w.pollReady i inner).2 := by
  unfold World.pollReady
  split
  · intro y hy; cases hy
  · generalize (World.unhold w i _).pollAcquire i _ = r
    obtain ⟨w₂, _ | p⟩ := r
    · exact quiet_pending i
    · cases inner with
      | ready => exact quiet_single fun _ => ⟨rfl, rfl⟩
      | pending => exact quiet_pending i
      | failed e => exact quiet_single fun _ => ⟨rfl, rfl⟩

theorem steady_unhold (g : Gate) : Steady w (w.unhold i g) :=
  (moves_drop_permit (i := i) _).toSteady.trans (steady_updGate _)

theorem steady_poll_ready (i : Nat) (inner : Readiness E) : Steady w (w.pollReady i inner).1 := by
  unfold World.pollReady
  split
  · exact Steady.refl w
  · rename_i g _
    have hst := (steady_unhold (w := w) (i := i) g).trans
      (steady_poll_acquire (w := w.unhold i g) (i := i) { g with permit := none })
    generalize (w.unhold i g).pollAcquire i _ = r at hst
    obtain ⟨w₂, _ | p⟩ := r
    · exact hst
    · cases inner with
      | ready => exact hst.trans (steady_updGate _)
      | pending => exact hst.trans (moves_drop_permit (i := i) p).toSteady
      | failed e => exact hst.trans (moves_drop_permit (i := i) p).toSteady

theorem conserves_poll_ready (i : Nat) (inner : Readiness E) :
    Conserves w (w.pollReady i inner).1 (w.pollReady i inner).2 :=
  (quiet_poll_ready i inner).conserves (steady_poll_ready i inner).next_sem
    (total_poll_ready i inner)

theorem quiet_nil : Quiet ([] : List (Out E)) := fun _ hy => by cases hy

theorem forgotten_called (i : Nat) (p : Option Nat) (k : Nat) :
    forgotten k [(Out.called i p : Out E)] = charge p k := by
  cases p with
  | none => rfl
  | some j => by_cases h : j = k <;> simp [forgotten, Out.forgets, charge, h]

theorem held_unmade (ha : Admits w) (hk : w.next_sem ≤ k) : w.held k = 0 := by
  apply List.countP_eq_zero.mpr
  intro o ho
  obtain ⟨i, hi⟩ := List.mem_iff_getElem?.mp ho
  cases o with
  | none => simp [holding]
  | some g =>
    have hok := ha.gates i g (by simp [gate, hi])
    simp only [decide_eq_true_eq]
    intro hh
    have := hok.permit k hh
    omega

theorem conserves_call (ha : Admits w) (i : Nat) :
    Conserves w (w.call i : World × List (Out E)).1 (w.call i : World × List (Out E)).2 := by
  unfold World.call
  split
  · exact quiet_nil.conserves rfl fun _ => rfl
  · rename_i g hg
    split
    · exact (quiet_single fun _ => ⟨rfl, rfl⟩).conserves rfl fun _ => rfl
    · rename_i p hp
      -- the call forgets the permit the gate held
      have hheld : g.permit.join = p := by rw [hp]; rfl
      refine ⟨rfl, fun k => rfl, fun k => ?_, fun k hk => ?_⟩
      · have h := total_updGate (k := k) hg fun g => { g with permit := none }
        rw [hheld] at h
        change _ + charge p k = _ + 0 at h
        change (w.updGate i fun g => { g with permit := none }).total k + _ = _
        rw [forgotten_called]
        omega
      · rw [forgotten_called]
        cases p with
        | none => rfl
        | some j =>
          have := (ha.gates i g hg).permit j (by simpa [holding] using hheld)
          simp [charge]
          omega

theorem next_sem_clone (i : Nat) : (w.clone i).next_sem = w.next_sem := by
  unfold World.clone
  split <;> rfl

theorem next_sem_drop (i : Nat) : (w.drop i).next_sem = w.next_sem := by
  unfold World.drop
  split
  · rfl
  · change ((w.dropFuture i _).dropPermit _).next_sem = _
    rw [drop_permit_next_sem]
    unfold dropFuture
    split <;> rfl

theorem total_clone (i k : Nat) : (w.clone i).total k = w.total k := by
  unfold World.clone
  split
  · rfl
  · simp [total, held, List.countP_append, holding, Gate.new]

theorem free_drop_future (i : Nat) (a : Option Opened) (k : Nat) :
    ((w.dropFuture i a).sems k).free = (w.sems k).free := by
  unfold dropFuture
  split
  · simpa using free_setSem (t := 0) (by simp) k
  · rfl

theorem held_set_none (hg : w.gate i = some g) (k : Nat) :
    (w.gates.set i none).countP (fun g => decide (holding g = some k)) +
      charge (holding (some g)) k = w.held k := by
  have := countP_set (fun g => decide (holding g = some k)) none w.gates i (some g)
    (gates_getElem hg)
  simpa [held, charge, show holding none = none from rfl] using this

theorem total_drop (i k : Nat) : (w.drop i).total k = w.total k := by
  unfold World.drop
  split
  · rfl
  · rename_i g hg
    -- the future gives back what was granted to it, the permit goes back, the gate is gone
    have h₁ := free_drop_permit (w := w.dropFuture i g.acquire) (holding (some g)) k
    have h₂ := held_set_none hg k
    rw [free_drop_future] at h₁
    change (((w.dropFuture i g.acquire).dropPermit (holding (some g))).sems k).free
      + (w.gates.set i none).countP (fun g => decide (holding g = some k)) = _
    rw [h₁]
    unfold total
    omega

theorem total_send_replace (st : State) (k : Nat) : (w.send_replace st).total k = w.total k := by
  have hg : (w.send_replace st).held k = w.held k := held_of_holding (by rw [send_replace_gates])
  simp only [total, hg, send_replace_sems]
  split <;> simp [Semaphore.free_close]

theorem quiet_send (st : State) : Quiet (w.send st : World × List (Out E)).2 := by
  unfold World.send
  split <;> exact quiet_single fun _ => ⟨rfl, rfl⟩

theorem conserves_send (st : State) :
    Conserves w (w.send st : World × List (Out E)).1 (w.send st : World × List (Out E)).2 := by
  refine (quiet_send st).conserves ?_ (fun k => ?_) <;> unfold World.send <;> split
  · rfl
  · exact send_replace_next_sem st
  · rfl
  · exact total_send_replace st k

/-- **`limit` makes a semaphore of its permits, all of them free.** -/
theorem Ledger.limit {os : List (Out E)} (ha : Admits w) (hl : Ledger os w) (n : Nat) :
    Ledger (os ++ (w.limit n : World × List (Out E)).2) (w.limit n : World × List (Out E)).1 := by
  unfold World.limit
  split
  · exact hl.conserve ((quiet_single fun _ => ⟨rfl, rfl⟩).conserves rfl fun _ => rfl)
  · dsimp only
    set w₁ : World := { w.setSem w.next_sem (Semaphore.new n) with next_sem := w.next_sem + 1 }
    have htotal : ∀ k, (w₁.send_replace (.Limited w.next_sem)).total k =
        (if k = w.next_sem then n else (w.sems k).free) + w.held k := by
      intro k
      rw [total_send_replace]
      by_cases h : k = w.next_sem
      · subst h; simp [w₁, total, held]
      · simp [w₁, total, held, h]
    constructor
    · intro k hk
      simp only [send_replace_next_sem, w₁] at hk
      rw [made_append, forgotten_append, htotal]
      by_cases h : k = w.next_sem
      · subst h
        obtain ⟨h₁, h₂⟩ := hl.unmade _ (Nat.le_refl _)
        rw [h₁, h₂, held_unmade ha (Nat.le_refl _)]
        simp [made, Out.made, forgotten, Out.forgets]
      · have hk' : k < w.next_sem := by omega
        rw [hl.made_sem k hk']
        simp [made, Out.made, forgotten, Out.forgets, h, total]
    · intro k hk
      simp only [send_replace_next_sem, w₁] at hk
      obtain ⟨h₁, h₂⟩ := hl.unmade k (by omega)
      have hne : w.next_sem ≠ k := by omega
      rw [made_append, forgotten_append, h₁, h₂]
      simp [made, Out.made, forgotten, Out.forgets, hne]

/-- **Every step keeps the ledger.** -/
theorem Ledger.step {os : List (Out E)} (ha : Admits w) (hl : Ledger os w) (e : Event E) :
    Ledger (os ++ (w.step e).2) (w.step e).1 := by
  cases e with
  | pollReady i inner => exact hl.conserve (conserves_poll_ready i inner)
  | call i => exact hl.conserve (conserves_call ha i)
  | clone i => exact hl.conserve (quiet_nil.conserves (next_sem_clone i) (total_clone i))
  | drop i => exact hl.conserve (quiet_nil.conserves (next_sem_drop i) (total_drop i))
  | «open» =>
    simp only [World.step]
    split
    · simpa using hl
    · exact hl.conserve (conserves_send .Open)
  | limit n =>
    simp only [World.step]
    split
    · simpa using hl
    · exact hl.limit ha n
  | shut =>
    simp only [World.step]
    split
    · simpa using hl
    · exact hl.conserve (conserves_send .Shut)
  | drop_tx => exact hl.conserve (quiet_nil.conserves rfl fun _ => rfl)

theorem ledger_channel : Ledger ([] : List (Out E)) channel where
  made_sem k hk := by simp [channel] at hk
  unmade _ _ := ⟨rfl, rfl⟩

/-- Only a call forgets a permit. -/
theorem forgets_step {e : Event E} (he : ∀ i, e ≠ .call i) :
    ∀ y ∈ (w.step e).2, ∀ k, y.forgets k = false := by
  intro y hy k
  cases e with
  | pollReady i inner => exact (quiet_poll_ready i inner y hy k).2
  | call i => exact absurd rfl (he i)
  | «open» =>
    simp only [World.step] at hy
    split at hy
    · cases hy
    · exact (quiet_send .Open y hy k).2
  | limit n =>
    simp only [World.step, World.limit] at hy
    split at hy
    · cases hy
    · split at hy <;> simp only [List.mem_singleton] at hy <;> subst hy <;> rfl
  | shut =>
    simp only [World.step] at hy
    split at hy
    · cases hy
    · exact (quiet_send .Shut y hy k).2
  | clone | drop | drop_tx => cases hy

end Ledger

/-! ### Runs -/

section Runs

variable {E : Type} {w : World} {i k : Nat}

/-- What a call says of the run before it: a call with a permit of semaphore `k` comes after
    `limit` made `k` with `n` permits, and after fewer than `n` calls with one of them. -/
def PermitLaw {E : Type} (pre : List (Out E)) : Out E → Prop
  | .called _ (some k) => ∃ n, made k pre = some n ∧ forgotten k pre < n
  | _ => True

theorem permit_law_of_forgets {y : Out E} (h : ∀ k, y.forgets k = false) (pre : List (Out E)) :
    PermitLaw pre y := by
  cases y with
  | called i p =>
    cases p with
    | none => trivial
    | some k => simpa [Out.forgets] using h k
  | _ => trivial

theorem held_pos {g : Gate} (hg : w.gate i = some g) (hp : holding (some g) = some k) :
    0 < w.held k :=
  List.countP_pos_iff.mpr ⟨some g, List.mem_of_getElem? (gates_getElem hg), by simpa using hp⟩

/-- A call spends the permit its gate holds, which the ledger counts among those left. -/
theorem permit_law_call {os : List (Out E)} (ha : Admits w) (hl : Ledger os w) (i : Nat) :
    TraceLaw (fun pre y => PermitLaw (os ++ pre) y) (w.call i : World × List (Out E)).2 := by
  unfold World.call
  split
  · exact trace_law_nil _
  · rename_i g hg
    split
    · exact TraceLaw.of_forall fun y hy _ => by
        rw [List.mem_singleton] at hy
        subst hy
        trivial
    · rename_i p hp
      refine (trace_law_cons _ _ _).mpr ⟨?_, trace_law_nil _⟩
      cases p with
      | none => trivial
      | some k =>
        have hhold : holding (some g) = some k := by simp [holding, hp]
        have hk := (ha.gates i g hg).permit k hhold
        have hpos := held_pos hg hhold
        refine ⟨_, by simpa using hl.made_sem k hk, ?_⟩
        simp only [List.append_nil, total]
        omega

/-- What a run keeps: the gates' invariant, the ledger, and the law of every call so far. -/
structure Live {E : Type} (os : List (Out E)) (w : World) : Prop where
  admits : Admits w
  ledger : Ledger os w
  laws : TraceLaw PermitLaw os

theorem Live.step {os : List (Out E)} (h : Live os w) (e : Event E) :
    Live (os ++ (w.step e).2) (w.step e).1 where
  admits := h.admits.step e
  ledger := h.ledger.step h.admits e
  laws := by
    refine (trace_law_append _ _ _).mpr ⟨h.laws, ?_⟩
    by_cases he : ∃ i, e = .call i
    · obtain ⟨i, rfl⟩ := he
      exact permit_law_call h.admits h.ledger i
    · push Not at he
      exact TraceLaw.of_forall fun y hy _ => permit_law_of_forgets (forgets_step he y hy) _

theorem live_channel : Live ([] : List (Out E)) channel :=
  ⟨admits_channel, ledger_channel, trace_law_nil _⟩

/-- **A limited gate admits no more requests than its permits.**  Over every run of a gate
    channel, whatever the gates, their clones and the `Tx` do, a call that forgets a permit of a
    semaphore comes after `limit` made that semaphore with `n` permits and after fewer than `n`
    calls that forgot one of its permits: all the gates together admit at most `n` requests
    under one `limit`. -/
theorem gate_permits_bounded (events : List (Event E)) :
    TraceLaw PermitLaw (machine.run channel events).2 := by
  have h := run_trace_invariant machine (fun _ => True) Live (fun _ _ e _ h => h.step e) events
    [] channel (fun _ _ => trivial) live_channel
  simpa using h.laws

end Runs

/-! ### Admission: a poll takes what the state lets through -/

section Admission

variable {E : Type} {w : World} {i k : Nat}

/-- What the state lets a gate through with at once: nothing while open, a free permit of the
    state's semaphore while limited. -/
def Passes (w : World) : Option Nat → Prop
  | none => w.state = .Open
  | some k => w.state = .Limited k ∧ 0 < (w.sems k).permits

theorem Passes.not_shut {p : Option Nat} (h : Passes w p) : w.state ≠ .Shut := by
  cases p with
  | none => rw [show w.state = .Open from h]; simp
  | some k => rw [h.1]; simp

/-- The semaphore a limited state lets a gate through with is open. -/
theorem Passes.sem_open (hs : SemOpen w) (h : Passes w (some k)) : (w.sems k).closed = false :=
  (hs.sem_open k (hs.state_sem k h.1)).mpr h.1

/-- Another semaphore changing leaves what the state lets through. -/
theorem Passes.setSem {p : Option Nat} (h : Passes w p) {j : Nat} (s : Semaphore Nat)
    (hj : p ≠ some j) : Passes (w.setSem j s) p := by
  cases p with
  | none => exact h
  | some k =>
    have hkj : k ≠ j := fun hkj => hj (by rw [hkj])
    simpa [Passes, hkj] using h

/-- Dropping a permit gives it back, which never takes a free permit away. -/
theorem Passes.unhold {p : Option Nat} (h : Passes w p) (g : Gate) : Passes (w.unhold i g) p := by
  cases p with
  | none => exact (steady_unhold g).state.trans h
  | some k =>
    refine ⟨(steady_unhold g).state.trans h.1, Nat.lt_of_lt_of_le h.2 ?_⟩
    show (w.sems k).permits ≤ ((w.dropPermit (holding (some g))).sems k).permits
    cases holding (some g) with
    | none => exact Nat.le_refl _
    | some j =>
      by_cases hjk : j = k
      · subst hjk; simpa [dropPermit] using Semaphore.permits_release (w.sems j)
      · simp [dropPermit, Ne.symm hjk]

theorem opened_top_passes (hs : SemOpen w) {p : Option Nat} (h : Passes w p) :
    (w.openedTop i).2 = .ready p := by
  cases p with
  | none => simp [openedTop, show w.state = .Open from h]
  | some k =>
    have hr := Semaphore.acquire_ready_of (h.sem_open hs) h.2 i
    unfold openedTop
    rw [h.1]
    dsimp only
    generalize (w.sems k).acquire i = r at hr ⊢
    obtain ⟨s, a⟩ := r
    dsimp only at hr
    subst hr
    rfl

theorem changed_from_passes (hs : SemOpen w) {p : Option Nat} {seen : Nat} (h : Passes w p)
    (hlt : seen < w.version) : (w.changedFrom i seen).2 = .ready p := by
  unfold changedFrom
  rw [if_neg (by omega)]
  exact opened_top_passes hs h

/-- A poll of a gate's future, wherever it waits, takes what the state lets through. -/
theorem opened_poll_passes (ha : Admits w) {f : Opened} (hw : f.Wakes w i) {p : Option Nat}
    (h : Passes w p) : (w.openedPoll i f).2 = .ready p := by
  cases f with
  | acquire k' seen =>
    obtain ⟨hk, _, hnew, hwaits⟩ := hw
    rw [openedPoll]
    cases hc : (w.sems k').closed with
    | true =>
      -- a later state closed the semaphore: the acquisition fails and the loop reads the state
      have hne : w.state ≠ .Limited k' := fun hl => by
        simp [(ha.sem_open k' hk).mpr hl] at hc
      have hpoll := Semaphore.poll_closed_of hc i
      generalize (w.sems k').poll i = r at hpoll ⊢
      obtain ⟨s, a⟩ := r
      dsimp only at hpoll
      subst hpoll
      dsimp only
      have hm := moves_setSem (w := w) (i := i) (Semaphore.closed_cancel (w.sems k') i)
        (fun h => h.cancel i) (fun _ hj h => h.cancel hj)
      refine changed_from_passes (ha.toSemOpen.moves hm) (h.setSem _ ?_) (hnew hne)
      rintro rfl
      exact hne h.1
    | false =>
      -- the semaphore is the state's, so a free permit means this gate was granted one
      have hl : w.state = .Limited k' := (ha.sem_open k' hk).mp hc
      cases p with
      | none => exact absurd ((show w.state = .Open from h).symm.trans hl) (by simp)
      | some k =>
        obtain ⟨hlk, hp⟩ := h
        rw [hl] at hlk
        have hkk : k' = k := State.Limited.inj hlk
        subst hkk
        have hpoll := Semaphore.poll_ready_of hc (Semaphore.granted_of_waits (ha.fair k')
          (hwaits hc) hp)
        generalize (w.sems k').poll i = r at hpoll ⊢
        obtain ⟨s, a⟩ := r
        dsimp only at hpoll
        subst hpoll
        rfl
  | changed seen => exact changed_from_passes ha.toSemOpen h (hw.2.resolve_left h.not_shut)
  | stalled => exact absurd hw.1 h.not_shut

theorem settle_of_ready {r : World × OpenedPoll} {p : Option Nat} (h : r.2 = .ready p) :
    (settle i r).2 = some p := by
  obtain ⟨w, q⟩ := r
  dsimp only at h
  subst h
  rfl

theorem poll_acquire_passes (ha : Admits w) {g : Gate} (hg : GateOk w i g) {p : Option Nat}
    (h : Passes w p) : (w.pollAcquire i g).2 = some p := by
  unfold pollAcquire
  split
  · rename_i f hf
    exact settle_of_ready (opened_poll_passes ha (hg.future f hf) h)
  · split
    · rename_i ho
      cases p with
      | none => rfl
      | some k => exact absurd (ho.symm.trans h.1) (by simp)
    · rename_i k hl
      cases p with
      | none => exact absurd ((show w.state = .Open from h).symm.trans hl) (by simp)
      | some k' =>
        obtain ⟨hlk, hp⟩ := h
        rw [hl] at hlk
        have hkk : k = k' := State.Limited.inj hlk
        subst hkk
        rw [Semaphore.try_acquire_of ((ha.sem_open k (ha.state_sem k hl)).mpr hl) hp]
    · rename_i hshut
      exact absurd hshut h.not_shut

/-- A live gate whose inner service is ready becomes ready with what the state lets through. -/
theorem poll_ready_passes (ha : Admits w) {g : Gate} (hg : w.gate i = some g) {p : Option Nat}
    (h : Passes w p) : (w.pollReady i (.ready : Readiness E)).2 = [Out.ready i p] := by
  have hu := ha.unhold (i := i) g
  have hr := poll_acquire_passes hu (hu.gates i _ (gate_unhold hg)) (h.unhold g)
  unfold World.pollReady
  rw [hg]
  dsimp only
  generalize (w.unhold i g).pollAcquire i { g with permit := none } = r at hr ⊢
  obtain ⟨w', q⟩ := r
  dsimp only at hr
  subst hr
  rfl

/-- A gate becomes ready only with what the state admits. -/
theorem admits_poll_ready (ha : Admits w) {p : Option Nat}
    (hp : (w.pollReady i (.ready : Readiness E)).2 = [Out.ready i p]) : w.state.admits p := by
  unfold World.pollReady at hp
  split at hp
  · cases hp
  · rename_i g hg
    have hu := ha.unhold (i := i) g
    rw [← (steady_unhold g).state]
    apply admits_poll_acquire hu.toSemOpen (hu.gates i _ (gate_unhold hg))
    generalize (w.unhold i g).pollAcquire i { g with permit := none } = r at hp ⊢
    obtain ⟨w', _ | q⟩ := r
    · cases hp
    · simp only [readyInner, List.cons.injEq, Out.ready.injEq, true_and, and_true] at hp
      rw [hp]

theorem admits_reachable (hw : (machine : Machine World (Event E) (Out E)).Reachable (fun _ => True) channel w) : Admits w :=
  reachable_invariant (m := (machine : Machine World (Event E) (Out E))) (fun _ => True) Admits
    admits_channel (fun _ e _ ha => ha.step e) hw

/-- **What a gate admits.**  In every world reached from `channel`, a `poll_ready` of a live
    gate whose inner service is ready answers ready only with what the current state admits: no
    permit while open, a permit of the current semaphore while limited, nothing while shut.  And
    it does answer ready whenever the state lets it through, while open or while the current
    semaphore has a free permit, whatever its earlier polls left waiting: an acquisition on a
    semaphore an older `limit` made, a wait for a change, or a place in the current queue. -/
theorem gate_admission (w : World)
    (hw : (machine : Machine World (Event E) (Out E)).Reachable (fun _ => True) channel w)
    (i : Nat) (g : Gate) (hg : w.gate i = some g) :
    (∀ p, (w.pollReady i (.ready : Readiness E)).2 = [Out.ready i p] → w.state.admits p) ∧
      (w.state = .Open → (w.pollReady i (.ready : Readiness E)).2 = [Out.ready i none]) ∧
      (∀ k, w.state = .Limited k → 0 < (w.sems k).permits →
        (w.pollReady i (.ready : Readiness E)).2 = [Out.ready i (some k)]) := by
  have ha : Admits w := admits_reachable hw
  refine ⟨fun _ hp => admits_poll_ready ha hp, fun ho => poll_ready_passes ha hg ho, ?_⟩
  intro k hl hp
  exact poll_ready_passes ha hg ⟨hl, hp⟩

/-- A gate left queued on a semaphore that a second `limit` closed takes a permit of the new
    semaphore at its next poll. -/
theorem gate_admission_relimited :
    let w := (machine.run channel
      ([.limit 0, .pollReady 0 .ready, .limit 1] : List (Event Unit))).1
    (∀ p, (w.pollReady 0 (.ready : Readiness Unit)).2 = [Out.ready 0 p] → w.state.admits p) ∧
      (w.state = .Open → (w.pollReady 0 (.ready : Readiness Unit)).2 = [Out.ready 0 none]) ∧
      (∀ k, w.state = .Limited k → 0 < (w.sems k).permits →
        (w.pollReady 0 (.ready : Readiness Unit)).2 = [Out.ready 0 (some k)]) :=
  gate_admission _ ⟨_, fun _ _ => trivial, rfl⟩ 0 ⟨some (.acquire 0 1), none⟩ (by decide)

end Admission

/-- Limited to one permit, the first gate takes it; its clone waits, is granted the permit the
    first gate gives back when it is polled again, and becomes ready with it. -/
example :
    (machine.run channel ([.limit 1, .pollReady 0 .ready, .clone 0, .pollReady 1 .ready,
      .pollReady 0 .ready, .pollReady 1 .ready] : List (Event Unit))).2 =
    [.limited 0 1, .ready 0 (some 0), .pending 1, .pending 0, .ready 1 (some 0)] := by
  decide

end LinkerdProxy.Stack.Gates
