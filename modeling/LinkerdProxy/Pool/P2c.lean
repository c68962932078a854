import LinkerdProxy.Lib.Machine
import LinkerdProxy.Lib.ReadyCache

namespace LinkerdProxy.Pool

open Machine

/-!
# The power-of-two-choices pool (`linkerd_pool_p2c`)

A `P2cPool` keeps the endpoints service discovery names and, in a `ReadyCache` keyed by address,
a service made for each of them.  Discovery resets, adds and removes endpoints: a new or changed
endpoint gets a new service, pushed to the cache's pending set; a removed one is evicted.
`poll_ready` drives pending services to readiness, then picks a ready service: the one a previous
readiness left in `next_idx`, or else by power of two choices, the less loaded of two distinct
ready services drawn at random; it checks the service again and, if it is no longer ready, goes
round once more.  `call` dispatches to the service `poll_ready` picked.

Each service is named by the target it was made for (`new_endpoint.new_service((addr,
target))`); the random draws, the loads and what each service answers are inputs of the events.
A `poll_ready` event carries one `Round` of answers for each time round its loop; answers that do
not end the loop are not a poll, and leave the pool as it was.

* `Sound` — in every reachable pool each cached service is for an endpoint in discovery, and
  `next_idx` is a position of the ready set; every operation keeps it (`Sound.step`).
* `p2c_dispatch` — from every reachable pool a call goes only to a service of an endpoint in
  discovery, and after a `poll_ready` that left a ready index it never panics.
* `Covered`, `p2c_covers` — over every run in which no service is reported failed, the endpoints
  in discovery are exactly the keys the cache holds a service for.

`poll_pool` and a failed `poll_ready` name the address whose service failed; the source keeps
only the error.
-/

variable {K T E M : Type*}

/-- `P2cPool`: the endpoints discovery names, the services made for them keyed by address (each
    named by the target it was made for), and the ready index a readiness left. -/
structure P2cPool (K T : Type*) where
  endpoints : IndexMap K T
  pool : ReadyCache K T
  next_idx : Option Nat

/-- What `poll_ready` answers. -/
inductive Polled (K E : Type*) where
  | ready
  | pending
  | failed (addr : K) (error : E)
  deriving DecidableEq, Repr

/-- The answers one time round `poll_ready`'s loop sees: the pending services that complete, the
    two random draws, the load of each ready service by index, and what the service picked answers
    when it is checked. -/
structure Round (K E M : Type*) where
  done : List (K × Except E Unit)
  draws : Nat × Nat
  load : Nat → M
  answer : PollReady E

namespace P2cPool

/-- `P2cPool::new`. -/
def new : P2cPool K T := ⟨.empty, .empty, none⟩

/-- `rng.random_range(0..n)`: the draw `x` taken below `n`. -/
def randomRange (x n : Nat) : Nat := x % n

/-- `gen_pair`: two distinct indices below `len`, in a random order. -/
def genPair (x y len : Nat) : Nat × Nat :=
  let aidx := randomRange x len
  let bidx := randomRange y (len - 1)
  if bidx ≥ aidx then (aidx, bidx + 1) else (aidx, bidx)

/-- `p2c_ready_index`, with the draws of `rng` and the load of the service at each ready index
    (`ready_index_load`). -/
def p2cReadyIndex [LE M] [DecidableLE M] (p : P2cPool K T) (draws : Nat × Nat)
    (load : Nat → M) : Option Nat :=
  match p.pool.readyLen with
  | 0 => none
  | 1 => some 0
  | len =>
    let (aidx, bidx) := genPair draws.1 draws.2 len
    if load aidx ≤ load bidx then some aidx else some bidx

variable [DecidableEq K] [DecidableEq T]

/-- `reset_pool`'s first loop, over the update: each address leaves `remaining`; a service is made
    unless the endpoint is unchanged; the endpoint is recorded. -/
def resetUpdate (p : P2cPool K T) (remaining : IndexMap K T) (changed : Bool) :
    List (K × T) → P2cPool K T × IndexMap K T × Bool
  | [] => (p, remaining, changed)
  | (addr, target) :: update =>
    let t := remaining.get addr
    let remaining := remaining.swapRemove addr
    if t = some target then
      -- "Endpoint unchanged"
      resetUpdate { p with endpoints := p.endpoints.insert addr target } remaining changed update
    else
      let p' : P2cPool K T := ⟨p.endpoints.insert addr target, p.pool.push addr target, p.next_idx⟩
      resetUpdate p' remaining true update

/-- `reset_pool`'s second loop: every endpoint left in `remaining` is evicted. -/
def evictRemaining (p : P2cPool K T) (changed : Bool) : List K → P2cPool K T × Bool
  | [] => (p, changed)
  | addr :: rest => evictRemaining { p with pool := p.pool.evict addr } true rest

/-- `Pool::reset_pool`. -/
def resetPool (p : P2cPool K T) (update : List (K × T)) : P2cPool K T :=
  let r := resetUpdate { p with endpoints := .empty } p.endpoints false update
  let d := evictRemaining r.1 r.2.2 r.2.1.keys
  if d.2 then { d.1 with next_idx := none } else d.1

/-- `Pool::add_endpoint`. -/
def addEndpoint (p : P2cPool K T) (addr : K) (target : T) : P2cPool K T :=
  if p.endpoints.get addr = some target then p
  else { p with endpoints := p.endpoints.insert addr target, pool := p.pool.push addr target }

/-- `Pool::remove_endpoint`. -/
def removeEndpoint (p : P2cPool K T) (addr : K) : P2cPool K T :=
  if addr ∈ p.endpoints.keys then
    ⟨p.endpoints.swapRemove addr, p.pool.evict addr, none⟩
  else p

/-- `Pool::poll_pool`: the pending services driven; `some (k, e)` is the failure of `k`'s. -/
def pollPool (p : P2cPool K T) (done : List (K × Except E Unit)) :
    P2cPool K T × Option (K × E) :=
  ({ p with pool := (p.pool.pollPending done).1 }, (p.pool.pollPending done).2)

/-- `Service::poll_ready`, one `Round` for each time round its loop; `none` when the rounds run
    out before the loop returns. -/
def pollReady [LE M] [DecidableLE M] (p : P2cPool K T) :
    List (Round K E M) → Option (P2cPool K T × Polled K E)
  | [] => none
  | r :: rounds =>
    match p.pool.pollPending r.done with
    | (pool, some (k, e)) => some ({ p with pool }, .failed k e)
    | (pool, none) =>
      let p : P2cPool K T := { p with pool }
      -- `self.next_idx.take().or_else(|| self.p2c_ready_index())`
      match p.next_idx.or (p.p2cReadyIndex r.draws r.load) with
      | none => some ({ p with next_idx := none }, .pending)
      | some idx =>
        match p.pool.checkReadyIndex idx r.answer with
        | (pool, .error (k, e)) => some ({ p with pool, next_idx := none }, .failed k e)
        | (pool, .ok false) => pollReady { p with pool, next_idx := none } rounds
        | (pool, .ok true) => some ({ p with pool, next_idx := some idx }, .ready)

/-- What a call does. -/
inductive Called (K T : Type*) where
  /-- Dispatched to the service made for `target` at `addr`. -/
  | called (addr : K) (target : T)
  | panicked (msg : String)
  deriving DecidableEq, Repr

/-- `Service::call`. -/
def call (p : P2cPool K T) : P2cPool K T × Called K T :=
  match p.next_idx with
  | none => (p, .panicked "call before ready")
  | some idx =>
    match p.pool.callReadyIndex idx with
    | none => ({ p with next_idx := none }, .panicked "check_ready_index was not called")
    | some ((k, t), pool) => ({ p with pool, next_idx := none }, .called k t)

end P2cPool

/-- What moves the pool: discovery updates (an `Update::Add` or `Update::Remove` is one event for
    each of its entries, `Update::DoesNotExist` a reset to nothing), a drive of the pool, a
    readiness poll, a call. -/
inductive Event (K T E M : Type*) where
  | reset (update : List (K × T))
  | add (addr : K) (target : T)
  | remove (addr : K)
  | pollPool (done : List (K × Except E Unit))
  | pollReady (rounds : List (Round K E M))
  | call

/-- What the pool answers. -/
inductive Out (K T E : Type*) where
  | pool_failed (addr : K) (error : E)
  | polled (answer : Polled K E)
  | called (answer : P2cPool.Called K T)
  deriving DecidableEq, Repr

namespace P2cPool

variable [DecidableEq K] [DecidableEq T] [LE M] [DecidableLE M]

/-- One event. -/
def step (p : P2cPool K T) : Event K T E M → P2cPool K T × List (Out K T E)
  | .reset update => (p.resetPool update, [])
  | .add addr target => (p.addEndpoint addr target, [])
  | .remove addr => (p.removeEndpoint addr, [])
  | .pollPool done =>
    match (p.pollPool done).2 with
    | some (k, e) => ((p.pollPool done).1, [Out.pool_failed k e])
    | none => ((p.pollPool done).1, [])
  | .pollReady rounds =>
    match p.pollReady rounds with
    | none => (p, [])
    | some (p', a) => (p', [Out.polled a])
  | .call => (p.call.1, [Out.called p.call.2])

/-- The pool as a machine. -/
def machine : Machine (P2cPool K T) (Event K T E M) (Out K T E) := ⟨step⟩

/-! ### The pool's invariant -/

/-- **The pool's invariant.**  Every cached service is for an endpoint in discovery, and the
    ready index a readiness left is a position of the ready set. -/
structure Sound (p : P2cPool K T) : Prop where
  cached : ∀ k, p.pool.cached k → k ∈ p.endpoints.keys
  next_idx : ∀ i, p.next_idx = some i → i < p.pool.readyLen

variable {p : P2cPool K T}

omit [DecidableEq K] [DecidableEq T] in
theorem sound_new : Sound (new : P2cPool K T) :=
  ⟨fun k h => absurd h (ReadyCache.cached_empty k), fun _ h => by cases h⟩

omit [DecidableEq K] [DecidableEq T] in
/-- A cache that holds no key the pool's did not, with no ready index left. -/
theorem Sound.with_pool (h : Sound p) {c : ReadyCache K T}
    (hc : ∀ k, c.cached k → p.pool.cached k) : Sound { p with pool := c, next_idx := none } :=
  ⟨fun k hk => h.cached k (hc k hk), fun _ hi => by cases hi⟩

theorem Sound.addEndpoint (h : Sound p) (addr : K) (target : T) :
    Sound (p.addEndpoint addr target) := by
  unfold P2cPool.addEndpoint
  split
  · exact h
  · refine ⟨fun k hk => ?_, h.next_idx⟩
    -- the new service is the new endpoint's
    rcases ReadyCache.cached_push_pending.mp hk with rfl | hk
    · exact IndexMap.mem_keys_insert.mpr (.inl rfl)
    · exact IndexMap.mem_keys_insert.mpr (.inr (h.cached k hk))

omit [DecidableEq T] in
theorem Sound.removeEndpoint (h : Sound p) (addr : K) : Sound (p.removeEndpoint addr) := by
  unfold P2cPool.removeEndpoint
  split
  · refine ⟨fun k hk => ?_, fun _ hi => by cases hi⟩
    obtain ⟨hk, hne⟩ := ReadyCache.cached_evict.mp hk
    exact IndexMap.mem_keys_swap_remove.mpr ⟨h.cached k hk, hne⟩
  · exact h

/-! #### `reset_pool` -/

omit [DecidableEq T] in
/-- One entry of the update: the address joins the endpoints and leaves `remaining`, so a key in
    either stays in one of them. -/
theorem mem_reset_entry {endpoints remaining : IndexMap K T} {addr k : K} {target : T}
    (h : k ∈ endpoints.keys ∨ k ∈ remaining.keys) :
    k ∈ (endpoints.insert addr target).keys ∨ k ∈ (remaining.swapRemove addr).keys := by
  by_cases hka : k = addr
  · exact .inl (IndexMap.mem_keys_insert.mpr (.inl hka))
  · rcases h with h | h
    · exact .inl (IndexMap.mem_keys_insert.mpr (.inr h))
    · exact .inr (IndexMap.mem_keys_swap_remove.mpr ⟨h, hka⟩)

/-- The first loop of `reset_pool` keeps every cached service's endpoint recorded or remaining. -/
theorem reset_update_cached :
    ∀ (update : List (K × T)) (p : P2cPool K T) (remaining : IndexMap K T) (changed : Bool),
      (∀ k, p.pool.cached k → k ∈ p.endpoints.keys ∨ k ∈ remaining.keys) →
      ∀ k, (p.resetUpdate remaining changed update).1.pool.cached k →
        k ∈ (p.resetUpdate remaining changed update).1.endpoints.keys ∨
          k ∈ (p.resetUpdate remaining changed update).2.1.keys
  | [], _, _, _, h => h
  | (addr, target) :: update, p, remaining, changed, h => by
    simp only [resetUpdate]
    split
    · exact reset_update_cached update _ _ _ fun k hk => mem_reset_entry (h k hk)
    · refine reset_update_cached update _ _ _ fun k hk => ?_
      -- the service made for the entry is its address's
      rcases ReadyCache.cached_push_pending.mp hk with rfl | hk
      · exact .inl (IndexMap.mem_keys_insert.mpr (.inl rfl))
      · exact mem_reset_entry (h k hk)

theorem reset_update_next_idx :
    ∀ (update : List (K × T)) (p : P2cPool K T) (remaining : IndexMap K T) (changed : Bool),
      (p.resetUpdate remaining changed update).1.next_idx = p.next_idx
  | [], _, _, _ => rfl
  | (addr, target) :: update, p, remaining, changed => by
    simp only [resetUpdate]
    split
    · exact reset_update_next_idx update _ _ _
    · exact reset_update_next_idx update _ _ _

theorem reset_update_true :
    ∀ (update : List (K × T)) (p : P2cPool K T) (remaining : IndexMap K T),
      (p.resetUpdate remaining true update).2.2 = true
  | [], _, _ => rfl
  | (addr, target) :: update, p, remaining => by
    simp only [resetUpdate]
    split
    · exact reset_update_true update _ _
    · exact reset_update_true update _ _

/-- A first loop that changed nothing left the cache as it was. -/
theorem reset_update_unchanged :
    ∀ (update : List (K × T)) (p : P2cPool K T) (remaining : IndexMap K T),
      (p.resetUpdate remaining false update).2.2 = false →
        (p.resetUpdate remaining false update).1.pool = p.pool
  | [], _, _, _ => rfl
  | (addr, target) :: update, p, remaining, h => by
    simp only [resetUpdate] at h ⊢
    split
    · rename_i ht
      rw [if_pos ht] at h
      exact reset_update_unchanged update _ _ h
    · rename_i ht
      rw [if_neg ht, reset_update_true] at h
      cases h

omit [DecidableEq T] in
theorem evict_remaining_frame :
    ∀ (rest : List K) (p : P2cPool K T) (changed : Bool),
      (p.evictRemaining changed rest).1.endpoints = p.endpoints ∧
        (p.evictRemaining changed rest).1.next_idx = p.next_idx
  | [], _, _ => ⟨rfl, rfl⟩
  | _ :: rest, _, _ => evict_remaining_frame rest _ true

omit [DecidableEq T] in
/-- The second loop of `reset_pool` evicts every service of an endpoint left over. -/
theorem evict_remaining_cached :
    ∀ (rest : List K) (p : P2cPool K T) (changed : Bool),
      (∀ k, p.pool.cached k → k ∈ p.endpoints.keys ∨ k ∈ rest) →
      ∀ k, (p.evictRemaining changed rest).1.pool.cached k → k ∈ p.endpoints.keys
  | [], _, _, h => fun k hk => (h k hk).resolve_right (List.not_mem_nil)
  | addr :: rest, p, _, h => by
    refine evict_remaining_cached rest { p with pool := p.pool.evict addr } true fun k hk => ?_
    obtain ⟨hk, hne⟩ := ReadyCache.cached_evict.mp hk
    rcases h k hk with h' | h'
    · exact .inl h'
    · exact .inr ((List.mem_cons.mp h').resolve_left hne)

omit [DecidableEq T] in
theorem evict_remaining_unchanged :
    ∀ (rest : List K) (p : P2cPool K T) (changed : Bool),
      (p.evictRemaining changed rest).2 = false →
        changed = false ∧ (p.evictRemaining changed rest).1 = p
  | [], _, _, h => ⟨h, rfl⟩
  | _ :: rest, _, _, h => by
    have := (evict_remaining_unchanged rest _ true h).1
    cases this

theorem Sound.resetPool (h : Sound p) (update : List (K × T)) :
    Sound (p.resetPool update) := by
  -- every cached service's endpoint is recorded by the first loop or evicted by the second
  have h₁ := reset_update_cached update { p with endpoints := .empty } p.endpoints false
    fun k hk => .inr (h.cached k hk)
  set r := resetUpdate { p with endpoints := .empty } p.endpoints false update with hr
  have h₂ := evict_remaining_cached r.2.1.keys r.1 r.2.2 fun k hk =>
    (h₁ k hk).imp id fun h' => h'
  have hframe := evict_remaining_frame r.2.1.keys r.1 r.2.2
  have hcached : ∀ k, (r.1.evictRemaining r.2.2 r.2.1.keys).1.pool.cached k →
      k ∈ (r.1.evictRemaining r.2.2 r.2.1.keys).1.endpoints.keys := by
    intro k hk
    rw [hframe.1]
    exact h₂ k hk
  rw [show p.resetPool update = if (r.1.evictRemaining r.2.2 r.2.1.keys).2 then
      { (r.1.evictRemaining r.2.2 r.2.1.keys).1 with next_idx := none }
      else (r.1.evictRemaining r.2.2 r.2.1.keys).1 from rfl]
  split
  · exact ⟨hcached, fun _ hi => by cases hi⟩
  · -- nothing changed: the cache and the ready index are the ones before
    rename_i hd
    obtain ⟨hc, hd'⟩ := evict_remaining_unchanged _ _ _ (by simpa using hd)
    refine ⟨hcached, fun i hi => ?_⟩
    rw [hd'] at hi ⊢
    have hpool : r.1.pool = p.pool := reset_update_unchanged update _ _ (by rw [← hr]; exact hc)
    rw [hr, reset_update_next_idx] at hi
    rw [hpool]
    exact h.next_idx i hi

/-! #### Polls and calls -/

omit [DecidableEq T] in
theorem Sound.pollPool (h : Sound p) (done : List (K × Except E Unit)) :
    Sound (p.pollPool done).1 :=
  ⟨fun k hk => h.cached k (ReadyCache.cached_of_poll_pending hk),
    fun i hi => Nat.lt_of_lt_of_le (h.next_idx i hi) (ReadyCache.ready_len_le_poll_pending _ _)⟩

omit [DecidableEq T] in
theorem Sound.pollReady :
    ∀ (rounds : List (Round K E M)) (p : P2cPool K T), Sound p →
      ∀ p' a, p.pollReady rounds = some (p', a) → Sound p'
  | [], _, _, _, _, h => by cases h
  | r :: rounds, p, hs, p', a, h => by
    -- the pending services driven first
    have hs₁ : Sound { p with pool := (p.pool.pollPending r.done).1 } := hs.pollPool r.done
    unfold P2cPool.pollReady at h
    generalize p.pool.pollPending r.done = pp at h hs₁
    obtain ⟨pool, _ | ⟨k, e⟩⟩ := pp
    · dsimp only at h hs₁
      split at h
      · cases h
        exact hs₁.with_pool fun _ hk => hk
      · rename_i idx hidx
        have hc₁ : ∀ k, (pool.checkReadyIndex idx r.answer).1.cached k → pool.cached k :=
          fun _ hk => ReadyCache.cached_of_check_ready_index hk
        have hc₂ := @ReadyCache.check_ready_index_true _ _ _ _ pool idx r.answer
        generalize pool.checkReadyIndex idx r.answer = cr at h hc₁ hc₂
        rcases cr with ⟨pool', ⟨k', e'⟩ | _ | _⟩
        · -- failed: the service is dropped
          cases h
          exact hs₁.with_pool hc₁
        · -- no longer ready: round the loop again
          exact Sound.pollReady rounds _ (hs₁.with_pool hc₁) p' a h
        · -- ready: the cache is as it was and the index one of its positions
          cases h
          obtain ⟨rfl, hi⟩ := hc₂ rfl
          exact ⟨hs₁.cached, fun i hi' => by cases hi'; exact hi⟩
    · cases h
      exact hs₁

omit [DecidableEq T] in
/-- A call keeps the invariant and dispatches only to a service of an endpoint in discovery. -/
theorem Sound.call (h : Sound p) :
    Sound p.call.1 ∧ ∀ k t, p.call.2 = .called k t → k ∈ p.endpoints.keys := by
  unfold P2cPool.call
  split
  · exact ⟨h, fun _ _ hc => by cases hc⟩
  · rename_i idx _
    cases hcall : p.pool.callReadyIndex idx with
    | none => exact ⟨h.with_pool fun _ hk => hk, fun _ _ hc => by cases hc⟩
    | some r =>
      obtain ⟨⟨k, t⟩, pool⟩ := r
      -- the key called is one the cache held, and the cache holds the same keys after
      obtain ⟨hk, hkeys⟩ := ReadyCache.cached_call_ready_index hcall
      refine ⟨h.with_pool fun k' hk' => (hkeys k').mp hk', fun k' t' hc => ?_⟩
      cases hc
      exact h.cached k hk

omit [DecidableEq T] in
/-- After a readiness that left a ready index, a call does not panic. -/
theorem Sound.call_called (h : Sound p) {i : Nat} (hi : p.next_idx = some i) :
    ∃ k t, p.call.2 = .called k t := by
  have hsome := ReadyCache.call_ready_index_isSome (h.next_idx i hi)
  unfold P2cPool.call
  rw [hi]
  dsimp only
  cases hcall : p.pool.callReadyIndex i with
  | none => rw [hcall] at hsome; cases hsome
  | some r =>
    obtain ⟨⟨k, t⟩, pool⟩ := r
    exact ⟨k, t, rfl⟩

/-- **Every event keeps the invariant.** -/
theorem Sound.step (h : Sound p) (e : Event K T E M) : Sound (p.step e).1 := by
  cases e with
  | reset update => exact h.resetPool update
  | add addr target => exact h.addEndpoint addr target
  | remove addr => exact h.removeEndpoint addr
  | pollPool done =>
    simp only [P2cPool.step]
    split <;> exact h.pollPool done
  | pollReady rounds =>
    simp only [P2cPool.step]
    split
    · exact h
    · rename_i p' a hp
      exact Sound.pollReady rounds p h p' a hp
  | call => exact h.call.1

theorem sound_reachable
    (hp : (machine : Machine (P2cPool K T) (Event K T E M) (Out K T E)).Reachable
      (fun _ => True) new p) : Sound p :=
  reachable_invariant (m := (machine : Machine (P2cPool K T) (Event K T E M) (Out K T E)))
    (fun _ => True) Sound sound_new (fun _ e _ h => h.step e) hp

/-- **The pool dispatches only to endpoints in discovery.**  In every pool reached from `new`,
    whatever discovery, the services and the random draws do: every service the cache holds is for
    an endpoint in discovery; a call goes only to a service of such an endpoint, never to one
    removed or reset away; and after a `poll_ready` that left a ready index, the call does not
    panic. -/
theorem p2c_dispatch (p : P2cPool K T)
    (hp : (machine : Machine (P2cPool K T) (Event K T E M) (Out K T E)).Reachable
      (fun _ => True) new p) :
    (∀ k, p.pool.cached k → k ∈ p.endpoints.keys) ∧
      (∀ k t, p.call.2 = .called k t → k ∈ p.endpoints.keys) ∧
      (∀ i, p.next_idx = some i → ∃ k t, p.call.2 = .called k t) := by
  have h : Sound p := sound_reachable hp
  exact ⟨h.cached, h.call.2, fun _ hi => h.call_called hi⟩

/-- A pool that added an endpoint, drove its service to readiness and was polled ready. -/
theorem p2c_dispatch_added :
    let p := (machine.run new [Event.add 0 7, Event.pollReady
      [⟨[(0, .ok ())], (0, 0), fun _ => (0 : Nat), PollReady.ready⟩]] :
        P2cPool Nat Nat × List (Out Nat Nat Unit)).1
    (∀ k, p.pool.cached k → k ∈ p.endpoints.keys) ∧
      (∀ k t, p.call.2 = .called k t → k ∈ p.endpoints.keys) ∧
      (∀ i, p.next_idx = some i → ∃ k t, p.call.2 = .called k t) :=
  p2c_dispatch (E := Unit) (M := Nat) _ ⟨_, fun _ _ => trivial, rfl⟩

/-! ### Coverage while nothing fails -/

/-- Every endpoint in discovery has a service in the cache. -/
def Covered (p : P2cPool K T) : Prop := ∀ k, k ∈ p.endpoints.keys → p.pool.cached k

omit [DecidableEq K] [DecidableEq T] in
theorem covered_new : Covered (new : P2cPool K T) := fun _ hk => by
  simp [new, IndexMap.keys, IndexMap.empty] at hk

theorem Covered.addEndpoint (h : Covered p) (addr : K) (target : T) :
    Covered (p.addEndpoint addr target) := by
  unfold P2cPool.addEndpoint
  split
  · exact h
  · intro k hk
    -- the new endpoint's service is pending; the others are where they were
    refine ReadyCache.cached_push_pending.mpr ?_
    rcases IndexMap.mem_keys_insert.mp hk with hk | hk
    · exact .inl hk
    · exact .inr (h k hk)

omit [DecidableEq T] in
theorem Covered.removeEndpoint (h : Covered p) (addr : K) :
    Covered (p.removeEndpoint addr) := by
  unfold P2cPool.removeEndpoint
  split
  · intro k hk
    obtain ⟨hk, hne⟩ := IndexMap.mem_keys_swap_remove.mp hk
    exact ReadyCache.cached_evict.mpr ⟨h k hk, hne⟩
  · exact h

/-- The first loop of `reset_pool` keeps a service for every endpoint recorded or remaining, and
    the two apart. -/
theorem reset_update_covered :
    ∀ (update : List (K × T)) (p : P2cPool K T) (remaining : IndexMap K T) (changed : Bool),
      (∀ k, k ∈ p.endpoints.keys ∨ k ∈ remaining.keys → p.pool.cached k) →
      (∀ k, k ∈ p.endpoints.keys → k ∉ remaining.keys) →
      let r := p.resetUpdate remaining changed update
      (∀ k, k ∈ r.1.endpoints.keys ∨ k ∈ r.2.1.keys → r.1.pool.cached k) ∧
        (∀ k, k ∈ r.1.endpoints.keys → k ∉ r.2.1.keys)
  | [], _, _, _, hc, hd => ⟨hc, hd⟩
  | (addr, target) :: update, p, remaining, changed, hc, hd => by
    simp only [resetUpdate]
    -- the address moves from `remaining` to the endpoints
    have hd' : ∀ k, k ∈ (p.endpoints.insert addr target).keys →
        k ∉ (remaining.swapRemove addr).keys := by
      intro k hk hr
      obtain ⟨hr, hne⟩ := IndexMap.mem_keys_swap_remove.mp hr
      rcases IndexMap.mem_keys_insert.mp hk with hk | hk
      · exact hne hk
      · exact hd k hk hr
    have hold : ∀ k, k ∈ (p.endpoints.insert addr target).keys ∨
        k ∈ (remaining.swapRemove addr).keys → k = addr ∨ p.pool.cached k := by
      intro k hk
      by_cases hka : k = addr
      · exact .inl hka
      · refine .inr (hc k ?_)
        rcases hk with hk | hk
        · exact .inl ((IndexMap.mem_keys_insert.mp hk).resolve_left hka)
        · exact .inr (IndexMap.mem_keys_swap_remove.mp hk).1
    split
    · rename_i ht
      -- unchanged: the endpoint was remaining, so its service is cached
      have ha : p.pool.cached addr := hc addr (.inr (IndexMap.mem_keys.mpr
        ⟨target, IndexMap.get_eq_some_iff.mp ht⟩))
      refine reset_update_covered update _ _ _ (fun k hk => ?_) hd'
      rcases hold k hk with rfl | hk
      · exact ha
      · exact hk
    · refine reset_update_covered update _ _ _ (fun k hk => ?_) hd'
      exact ReadyCache.cached_push_pending.mpr ((hold k hk).imp id id)

omit [DecidableEq T] in
/-- The second loop of `reset_pool` keeps the service of every endpoint it does not evict. -/
theorem evict_remaining_covered :
    ∀ (rest : List K) (p : P2cPool K T) (changed : Bool) (k : K),
      k ∉ rest → p.pool.cached k → (p.evictRemaining changed rest).1.pool.cached k
  | [], _, _, _, _, h => h
  | addr :: rest, p, _, k, hk, h => by
    have hne : k ≠ addr := fun he => hk (he ▸ List.mem_cons_self ..)
    exact evict_remaining_covered rest _ true k (fun h' => hk (List.mem_cons_of_mem _ h'))
      (ReadyCache.cached_evict.mpr ⟨h, hne⟩)

theorem Covered.resetPool (h : Covered p) (update : List (K × T)) :
    Covered (p.resetPool update) := by
  have h₁ := reset_update_covered update { p with endpoints := .empty } p.endpoints false
    (fun k hk => h k (hk.resolve_left (by simp [IndexMap.keys, IndexMap.empty])))
    (fun k hk => by simp [IndexMap.keys, IndexMap.empty] at hk)
  set r := resetUpdate { p with endpoints := .empty } p.endpoints false update with hr
  have hcov : ∀ k, k ∈ (r.1.evictRemaining r.2.2 r.2.1.keys).1.endpoints.keys →
      (r.1.evictRemaining r.2.2 r.2.1.keys).1.pool.cached k := by
    intro k hk
    rw [(evict_remaining_frame r.2.1.keys r.1 r.2.2).1] at hk
    exact evict_remaining_covered _ _ _ k (h₁.2 k hk) (h₁.1 k (.inl hk))
  rw [show p.resetPool update = if (r.1.evictRemaining r.2.2 r.2.1.keys).2 then
      { (r.1.evictRemaining r.2.2 r.2.1.keys).1 with next_idx := none }
      else (r.1.evictRemaining r.2.2 r.2.1.keys).1 from rfl]
  split
  · exact hcov
  · exact hcov

/-- Whether an output reports a failed service. -/
def reportsFailure : Out K T E → Bool
  | .pool_failed _ _ => true
  | .polled (.failed _ _) => true
  | _ => false

omit [DecidableEq T] in
theorem Covered.pollReady :
    ∀ (rounds : List (Round K E M)) (p : P2cPool K T), Covered p →
      ∀ p' a, p.pollReady rounds = some (p', a) → (∀ k e, a ≠ .failed k e) → Covered p'
  | [], _, _, _, _, h, _ => by cases h
  | r :: rounds, p, hs, p', a, h, ha => by
    unfold P2cPool.pollReady at h
    have hpp := @ReadyCache.cached_poll_pending _ _ _ _ p.pool r.done
    generalize p.pool.pollPending r.done = pp at h hpp
    obtain ⟨pool, _ | ⟨k, e⟩⟩ := pp
    · -- the poll did not fail: every service is still cached
      have hs₁ : ∀ k, k ∈ p.endpoints.keys → pool.cached k := fun k hk => hpp rfl (hs k hk)
      dsimp only at h
      split at h
      · cases h
        exact hs₁
      · rename_i idx _
        have hc := @ReadyCache.cached_check_ready_index _ _ _ _ pool idx r.answer
        generalize pool.checkReadyIndex idx r.answer = cr at h hc
        rcases cr with ⟨pool', ⟨k', e'⟩ | _ | _⟩
        · cases h
          exact absurd rfl (ha k' e')
        · refine Covered.pollReady rounds _ ?_ p' a h ha
          exact fun k hk => hc rfl (hs₁ k hk)
        · cases h
          exact fun k hk => hc rfl (hs₁ k hk)
    · cases h
      exact absurd rfl (ha k e)

omit [DecidableEq T] in
theorem Covered.call (h : Covered p) : Covered p.call.1 := by
  unfold P2cPool.call
  split
  · exact h
  · rename_i idx _
    cases hcall : p.pool.callReadyIndex idx with
    | none => exact h
    | some r =>
      obtain ⟨⟨k, t⟩, pool⟩ := r
      exact fun k' hk' => ((ReadyCache.cached_call_ready_index hcall).2 k').mpr (h k' hk')

/-- An event that reports no failure keeps a service for every endpoint. -/
theorem Covered.step (h : Covered p) (e : Event K T E M)
    (hok : ∀ o ∈ (p.step e).2, reportsFailure o = false) : Covered (p.step e).1 := by
  cases e with
  | reset update => exact h.resetPool update
  | add addr target => exact h.addEndpoint addr target
  | remove addr => exact h.removeEndpoint addr
  | pollPool done =>
    simp only [P2cPool.step] at hok ⊢
    split
    · rename_i k e hf
      simp [hf, reportsFailure] at hok
    · rename_i hf
      exact fun k hk => ReadyCache.cached_poll_pending hf (h k hk)
  | pollReady rounds =>
    simp only [P2cPool.step] at hok ⊢
    split
    · exact h
    · rename_i p' a hp
      rw [hp] at hok
      refine Covered.pollReady rounds p h p' a hp fun k e ha => ?_
      simp [ha, reportsFailure] at hok
  | call => exact h.call

theorem covered_run : ∀ (events : List (Event K T E M)) (p : P2cPool K T), Covered p →
    (∀ o ∈ (machine.run p events).2, reportsFailure o = false) → Covered (machine.run p events).1
  | [], _, h, _ => h
  | e :: events, p, h, hok => by
    simp only [Machine.run, List.mem_append] at hok ⊢
    exact covered_run events _ (h.step e fun o ho => hok o (.inl ho)) fun o ho => hok o (.inr ho)

/-- **While nothing fails, every endpoint has a service.**  Over every run from `new` in which
    no service is reported failed, whatever discovery, the services' readiness, the random draws
    and the calls do, every endpoint in discovery has a service in the cache, pending or ready,
    and every service there is for an endpoint in discovery. -/
theorem p2c_covers (events : List (Event K T E M))
    (hok : ∀ o ∈ (machine.run new events).2, reportsFailure o = false) :
    ∀ k, k ∈ (machine.run new events).1.endpoints.keys ↔
      (machine.run new events).1.pool.cached k := by
  intro k
  have hs : Sound (machine.run new events).1 :=
    sound_reachable ⟨events, fun _ _ => trivial, rfl⟩
  exact ⟨covered_run events new covered_new hok k, hs.cached k⟩

/-- An endpoint added and its service made ready: nothing failed, and the endpoint has its
    service. -/
theorem p2c_covers_added :
    let events : List (Event Nat Nat Unit Nat) :=
      [.add 0 7, .pollReady [⟨[(0, .ok ())], (0, 0), fun _ => 0, PollReady.ready⟩]]
    (∀ o ∈ (machine.run new events).2, reportsFailure o = false) ∧
      ∀ k, k ∈ (machine.run new events).1.endpoints.keys ↔
        (machine.run new events).1.pool.cached k := by
  intro events
  have hok : ∀ o ∈ (machine.run new events).2, reportsFailure o = false := by decide
  exact ⟨hok, p2c_covers events hok⟩

end P2cPool

end LinkerdProxy.Pool
