import LinkerdProxy.Lib.IndexMap

namespace LinkerdProxy

/-!
# A cache of services driven to readiness (`tower::ready_cache::ReadyCache`)

A `ReadyCache` keeps services by key in two sets.  A pushed service waits in the pending set
until a poll finds it ready, when it joins the ready set; a ready service is reached by its
position, checked again before use, and sent back to pending when it is no longer ready or
has been called.  A key has at most one pending service: pushing another cancels the one
before.  Pushing does not touch the ready set, so a ready service may have a newer one pending
under its key; the newer one replaces it in place when it becomes ready, and once the older one
is used it is dropped instead of going back to pending.  Eviction cancels a key's pending
service and removes its ready one.

The pending set is the map of `pending_cancel_txs`, each key with the service its live future
holds; a canceled future is gone from it, and completes unseen.  Which futures complete, and how,
is the environment's: `poll_pending` takes the completions in the order they come.

What is proved:

* `cached` — the keys the cache holds a service for: `push` adds its key, `evict` removes its
  key, and polls, checks and calls keep the set when they do not fail and never add to it
  (`cached_poll_pending`, `cached_of_poll_pending`, `cached_check_ready_index`,
  `cached_of_check_ready_index`, `cached_call_ready_index`);
* `poll_pending_induction`, `poll_pending_induction_ok` — the induction rules for a poll: what
  every completion keeps (every completion that does not fail) the whole poll keeps;
* a call at a position of the ready set does not panic (`call_ready_index_isSome`);
* polls never shrink the ready set (`ready_len_le_poll_pending`), and a check that answers
  ready leaves the cache as it was (`check_ready_index_true`).
-/

/-- What polling a service for readiness answers. -/
inductive PollReady (E : Type*) where
  | ready
  | pending
  | failed (error : E)
  deriving DecidableEq, Repr

/-- `ReadyCache`. -/
structure ReadyCache (K S : Type*) where
  /-- `pending_cancel_txs`, each key with the service its live pending future holds. -/
  pending : IndexMap K S
  /-- `ready`, in its order. -/
  ready : IndexMap K S

namespace ReadyCache

variable {K S E : Type*}

/-- `ReadyCache::default`. -/
def empty : ReadyCache K S := ⟨.empty, .empty⟩

/-- `ready_len`. -/
def readyLen (c : ReadyCache K S) : Nat := c.ready.len

/-- `get_ready_index`. -/
def getReadyIndex (c : ReadyCache K S) (i : Nat) : Option (K × S) := c.ready.getIndex i

variable [DecidableEq K]

/-- `pending_contains`. -/
def pendingContains (c : ReadyCache K S) (k : K) : Bool := c.pending.contains k

/-- `push_pending`: a new pending service for `k` cancels the one before it. -/
def pushPending (c : ReadyCache K S) (k : K) (s : S) : ReadyCache K S :=
  { c with pending := c.pending.insert k s }

/-- `push`: the service waits in the pending set; the ready set is left as it is. -/
def push (c : ReadyCache K S) (k : K) (s : S) : ReadyCache K S := c.pushPending k s

/-- `evict`: a pending service of `k` is canceled, a ready one dropped. -/
def evict (c : ReadyCache K S) (k : K) : ReadyCache K S :=
  ⟨c.pending.swapRemove k, c.ready.swapRemove k⟩

/-- One pending future completing, as `poll_pending` sees it: a canceled one (no live service
    under its key) is dropped; a ready one joins the ready set, in the place of its key's older
    service if there is one; a failed one leaves the cache and its error ends the poll. -/
def complete (c : ReadyCache K S) (k : K) (r : Except E Unit) :
    ReadyCache K S × Option (K × E) :=
  match c.pending.get k with
  | none => (c, none)
  | some s =>
    match r with
    | .ok () => (⟨c.pending.swapRemove k, c.ready.insert k s⟩, none)
    | .error e => ({ c with pending := c.pending.swapRemove k }, some (k, e))

/-- `poll_pending`, over the completions in the order they come; `some (k, e)` is the error
    `Failed(k, e)`. -/
def pollPending (c : ReadyCache K S) : List (K × Except E Unit) → ReadyCache K S × Option (K × E)
  | [] => (c, none)
  | (k, r) :: done =>
    match c.complete k r with
    | (c', some f) => (c', some f)
    | (c', none) => c'.pollPending done

/-- The ready set without position `i`: what `ready.swap_remove_index(index)` leaves. -/
def takeReady (c : ReadyCache K S) (i : Nat) : ReadyCache K S :=
  { c with ready := c.ready.removeIndex i }

/-- A service taken out of the ready set goes back to pending, unless a newer service of its key
    is pending: `if !self.pending_contains(&key) { self.push_pending(key, svc, cancel) }`. -/
def requeue (c : ReadyCache K S) (k : K) (s : S) : ReadyCache K S :=
  if c.pendingContains k then c else c.pushPending k s

/-- `check_ready_index`, the service at position `i` answering `answer`: still ready, it stays;
    no longer ready, it goes back to pending; failed, it is dropped and the error returned. -/
def checkReadyIndex (c : ReadyCache K S) (i : Nat) (answer : PollReady E) :
    ReadyCache K S × Except (K × E) Bool :=
  match c.ready.getIndex i with
  | none => (c, .ok false)
  | some (k, s) =>
    match answer with
    | .ready => (c, .ok true)
    | .pending => ((c.takeReady i).requeue k s, .ok false)
    | .failed e => (c.takeReady i, .error (k, e))

/-- `call_ready_index`: the entry whose service is called and the cache after it, the service
    back to pending; `none` is the panic "check_ready_index was not called". -/
def callReadyIndex (c : ReadyCache K S) (i : Nat) : Option ((K × S) × ReadyCache K S) :=
  match c.ready.getIndex i with
  | none => none
  | some (k, s) => some ((k, s), (c.takeReady i).requeue k s)

/-! ### What one completion does -/

/-- A completion either finds no live service, promotes the one pending, or fails it. -/
theorem complete_cases (c : ReadyCache K S) (k : K) (r : Except E Unit) :
    (c.complete k r = (c, none) ∧ k ∉ c.pending.keys) ∨
    (∃ s, (k, s) ∈ c.pending.entries ∧
      (c.complete k r = (⟨c.pending.swapRemove k, c.ready.insert k s⟩, none) ∨
        ∃ e, c.complete k r = ({ c with pending := c.pending.swapRemove k }, some (k, e)))) := by
  unfold complete
  cases hg : c.pending.get k with
  | none => exact .inl ⟨rfl, IndexMap.get_eq_none_iff.mp hg⟩
  | some s =>
    refine .inr ⟨s, IndexMap.get_eq_some_iff.mp hg, ?_⟩
    cases r with
    | ok u => exact .inl rfl
    | error e => exact .inr ⟨e, rfl⟩

/-- The induction rule for `poll_pending`: what every completion keeps, the whole poll keeps. -/
theorem poll_pending_induction (P : ReadyCache K S → Prop)
    (hstep : ∀ c k (r : Except E Unit), P c → P (c.complete k r).1) :
    ∀ (done : List (K × Except E Unit)) (c : ReadyCache K S), P c → P (c.pollPending done).1
  | [], _, hc => hc
  | (k, r) :: done, c, hc => by
    have h₁ := hstep c k r hc
    unfold pollPending
    generalize c.complete k r = o at h₁
    obtain ⟨c', _ | f⟩ := o
    · exact poll_pending_induction P hstep done c' h₁
    · exact h₁

/-- The induction rule for a `poll_pending` that does not fail: what every completion that does
    not fail keeps, such a poll keeps. -/
theorem poll_pending_induction_ok (P : ReadyCache K S → Prop)
    (hstep : ∀ c k (r : Except E Unit), P c → (c.complete k r).2 = none → P (c.complete k r).1) :
    ∀ (done : List (K × Except E Unit)) (c : ReadyCache K S), P c →
      (c.pollPending done).2 = none → P (c.pollPending done).1
  | [], _, hc, _ => hc
  | (k, r) :: done, c, hc, hok => by
    unfold pollPending at hok ⊢
    have h₁ := hstep c k r hc
    generalize c.complete k r = o at h₁ hok ⊢
    obtain ⟨c', _ | f⟩ := o
    · exact poll_pending_induction_ok P hstep done c' (h₁ rfl) hok
    · cases hok

/-! ### The keys held -/

/-- The cache holds a service of `k`, pending or ready. -/
def cached (c : ReadyCache K S) (k : K) : Prop := k ∈ c.pending.keys ∨ k ∈ c.ready.keys

omit [DecidableEq K] in
theorem cached_empty (k : K) : ¬ (empty : ReadyCache K S).cached k := by
  simp [cached, empty, IndexMap.keys]

theorem cached_push_pending {c : ReadyCache K S} {key k : K} {s : S} :
    (c.pushPending key s).cached k ↔ k = key ∨ c.cached k := by
  unfold cached pushPending
  rw [IndexMap.mem_keys_insert]
  tauto

theorem cached_evict {c : ReadyCache K S} {key k : K} :
    (c.evict key).cached k ↔ c.cached k ∧ k ≠ key := by
  unfold cached evict
  simp only [IndexMap.mem_keys_swap_remove]
  tauto

/-- A completion never adds a key; one that does not fail keeps every key. -/
theorem cached_complete (c : ReadyCache K S) (k : K) (r : Except E Unit) (k' : K) :
    ((c.complete k r).1.cached k' → c.cached k') ∧
      ((c.complete k r).2 = none → (c.complete k r).1.cached k' → c.cached k' →
        (c.complete k r).1.cached k') := by
  rcases complete_cases c k r with ⟨hc, -⟩ | ⟨s, hs, hc | ⟨e, hc⟩⟩ <;> rw [hc]
  · exact ⟨id, fun _ h _ => h⟩
  · -- promoted: the key moves from the pending set to the ready set
    refine ⟨fun h => ?_, fun _ h _ => h⟩
    unfold cached at h ⊢
    simp only [IndexMap.mem_keys_swap_remove, IndexMap.mem_keys_insert] at h
    rcases h with ⟨h, -⟩ | rfl | h
    · exact .inl h
    · exact .inl (IndexMap.mem_keys_of_mem hs)
    · exact .inr h
  · refine ⟨fun h => ?_, fun h => by cases h⟩
    unfold cached at h ⊢
    simp only [IndexMap.mem_keys_swap_remove] at h
    rcases h with ⟨h, -⟩ | h
    · exact .inl h
    · exact .inr h

/-- A completion that does not fail keeps every key. -/
theorem cached_of_complete_ok {c : ReadyCache K S} {k : K} {r : Except E Unit}
    (hok : (c.complete k r).2 = none) {k' : K} (h : c.cached k') :
    (c.complete k r).1.cached k' := by
  rcases complete_cases c k r with ⟨hc, -⟩ | ⟨s, hs, hc | ⟨e, hc⟩⟩
  · rw [hc]; exact h
  · rw [hc]
    unfold cached at h ⊢
    simp only [IndexMap.mem_keys_swap_remove, IndexMap.mem_keys_insert]
    by_cases hk : k' = k
    · exact .inr (.inl hk)
    · rcases h with h | h
      · exact .inl ⟨h, hk⟩
      · exact .inr (.inr h)
  · rw [hc] at hok; cases hok

theorem cached_of_poll_pending {c : ReadyCache K S} {done : List (K × Except E Unit)} {k : K}
    (h : (c.pollPending done).1.cached k) : c.cached k :=
  poll_pending_induction (fun c' => c'.cached k → c.cached k)
    (fun c' k' r ih h' => ih ((cached_complete c' k' r k).1 h')) done c id h

theorem cached_poll_pending {c : ReadyCache K S} {done : List (K × Except E Unit)}
    (hok : (c.pollPending done).2 = none) {k : K} (h : c.cached k) :
    (c.pollPending done).1.cached k :=
  poll_pending_induction_ok (fun c' => c'.cached k) (fun _ _ _ h' hok' => cached_of_complete_ok hok' h')
    done c h hok

theorem cached_requeue {c : ReadyCache K S} {k k' : K} {s : S} :
    (c.requeue k s).cached k' ↔ k' = k ∨ c.cached k' := by
  unfold requeue
  split
  · rename_i h
    -- the key was pending already
    have hk : k ∈ c.pending.keys := by simpa [pendingContains, IndexMap.contains] using h
    constructor
    · exact .inr
    · rintro (rfl | h')
      · exact .inl hk
      · exact h'
  · exact cached_push_pending

omit [DecidableEq K] in
theorem cached_take_ready {c : ReadyCache K S} {i : Nat} (hi : i < c.ready.len) {k' : K} :
    (c.takeReady i).cached k' ↔
      k' ∈ c.pending.keys ∨ (k' ∈ c.ready.keys ∧ k' ≠ (c.ready.entries.get ⟨i, hi⟩).1) := by
  unfold cached takeReady
  simp only [IndexMap.mem_keys, IndexMap.mem_remove_index hi]
  constructor
  · rintro (h | ⟨v, hv, hk⟩)
    · exact .inl h
    · exact .inr ⟨⟨v, hv⟩, hk⟩
  · rintro (h | ⟨⟨v, hv⟩, hk⟩)
    · exact .inl h
    · exact .inr ⟨v, hv, hk⟩

/-- Taking the service at a position and sending it back to pending keeps every key. -/
theorem cached_take_ready_requeue {c : ReadyCache K S} {i : Nat} {k : K} {s : S}
    (hg : c.ready.getIndex i = some (k, s)) {k' : K} :
    ((c.takeReady i).requeue k s).cached k' ↔ c.cached k' := by
  obtain ⟨hi, he⟩ := IndexMap.get_index_eq_some_iff.mp hg
  have hk : k ∈ c.ready.keys := IndexMap.mem_keys_of_mem (he ▸ List.get_mem c.ready.entries ⟨i, hi⟩)
  rw [cached_requeue, cached_take_ready hi, he]
  unfold cached
  by_cases h : k' = k
  · subst h; simp [hk]
  · simp [h]

omit [DecidableEq K] in
theorem cached_of_take_ready {c : ReadyCache K S} {i : Nat} {k' : K}
    (h : (c.takeReady i).cached k') : c.cached k' := by
  by_cases hi : i < c.ready.len
  · rcases (cached_take_ready hi).mp h with h | ⟨h, -⟩
    · exact .inl h
    · exact .inr h
  · simpa [takeReady, IndexMap.remove_index_of_le (Nat.le_of_not_lt hi)] using h

/-- A check that does not fail keeps every key. -/
theorem cached_check_ready_index {c : ReadyCache K S} {i : Nat} {a : PollReady E} {b : Bool}
    (hok : (c.checkReadyIndex i a).2 = .ok b) {k : K} (h : c.cached k) :
    (c.checkReadyIndex i a).1.cached k := by
  unfold checkReadyIndex at hok ⊢
  cases hg : c.ready.getIndex i with
  | none => simpa [hg] using h
  | some e =>
    obtain ⟨k₀, s⟩ := e
    cases a with
    | ready => simpa [hg] using h
    | pending => simpa [hg] using (cached_take_ready_requeue hg).mpr h
    | failed err => simp [hg] at hok

/-- A check never adds a key. -/
theorem cached_of_check_ready_index {c : ReadyCache K S} {i : Nat} {a : PollReady E} {k : K}
    (h : (c.checkReadyIndex i a).1.cached k) : c.cached k := by
  unfold checkReadyIndex at h
  cases hg : c.ready.getIndex i with
  | none => simpa [hg] using h
  | some e =>
    obtain ⟨k₀, s⟩ := e
    cases a with
    | ready => simpa [hg] using h
    | pending => exact (cached_take_ready_requeue hg).mp (by simpa [hg] using h)
    | failed err => exact cached_of_take_ready (by simpa [hg] using h)

theorem call_ready_index_eq {c c' : ReadyCache K S} {i : Nat} {k : K} {s : S}
    (h : c.callReadyIndex i = some ((k, s), c')) :
    c.ready.getIndex i = some (k, s) ∧ c' = (c.takeReady i).requeue k s := by
  unfold callReadyIndex at h
  cases hg : c.ready.getIndex i with
  | none => simp [hg] at h
  | some e =>
    obtain ⟨k', s'⟩ := e
    simp only [hg, Option.some.injEq, Prod.mk.injEq] at h
    obtain ⟨⟨rfl, rfl⟩, rfl⟩ := h
    exact ⟨rfl, rfl⟩

/-- A call keeps every key, and the key it calls is one the cache held. -/
theorem cached_call_ready_index {c c' : ReadyCache K S} {i : Nat} {k : K} {s : S}
    (h : c.callReadyIndex i = some ((k, s), c')) :
    c.cached k ∧ ∀ k', c'.cached k' ↔ c.cached k' := by
  obtain ⟨hg, rfl⟩ := call_ready_index_eq h
  obtain ⟨hi, he⟩ := IndexMap.get_index_eq_some_iff.mp hg
  exact ⟨.inr (IndexMap.mem_keys_of_mem (he ▸ List.get_mem c.ready.entries ⟨i, hi⟩)),
    fun _ => cached_take_ready_requeue hg⟩

/-! ### Positions -/

@[simp] theorem ready_len_push_pending (c : ReadyCache K S) (k : K) (s : S) :
    (c.pushPending k s).readyLen = c.readyLen := rfl

theorem ready_len_le_complete (c : ReadyCache K S) (k : K) (r : Except E Unit) :
    c.readyLen ≤ (c.complete k r).1.readyLen := by
  rcases complete_cases c k r with ⟨hc, -⟩ | ⟨s, -, hc | ⟨e, hc⟩⟩
  · exact hc ▸ Nat.le_refl c.readyLen
  · exact hc ▸ IndexMap.len_le_insert c.ready k s
  · exact hc ▸ Nat.le_refl c.readyLen

/-- A poll never shrinks the ready set: positions chosen before it stay valid. -/
theorem ready_len_le_poll_pending (c : ReadyCache K S) (done : List (K × Except E Unit)) :
    c.readyLen ≤ (c.pollPending done).1.readyLen :=
  poll_pending_induction (fun c' => c.readyLen ≤ c'.readyLen)
    (fun c' k r h => Nat.le_trans h (ready_len_le_complete c' k r)) done c (Nat.le_refl _)

/-- A check that answers ready leaves the cache as it was, at a position of its ready set. -/
theorem check_ready_index_true {c : ReadyCache K S} {i : Nat} {a : PollReady E}
    (h : (c.checkReadyIndex i a).2 = .ok true) :
    (c.checkReadyIndex i a).1 = c ∧ i < c.readyLen := by
  unfold checkReadyIndex at h ⊢
  cases hg : c.ready.getIndex i with
  | none => simp [hg] at h
  | some e =>
    obtain ⟨hi, -⟩ := IndexMap.get_index_eq_some_iff.mp hg
    obtain ⟨k, s⟩ := e
    cases a with
    | ready => exact ⟨rfl, hi⟩
    | pending => simp [hg] at h
    | failed err => simp [hg] at h

/-- A call at a position of the ready set does not panic. -/
theorem call_ready_index_isSome {c : ReadyCache K S} {i : Nat} (hi : i < c.readyLen) :
    (c.callReadyIndex i).isSome := by
  unfold callReadyIndex
  cases hg : c.ready.getIndex i with
  | none =>
    have : c.ready.getIndex i = some (c.ready.entries.get ⟨i, hi⟩) :=
      IndexMap.get_index_eq_some_iff.mpr ⟨hi, rfl⟩
    rw [hg] at this
    cases this
  | some e => rfl

end ReadyCache

end LinkerdProxy
