import LinkerdProxy.Distribute.Params
import LinkerdProxy.Lib.Weights

namespace LinkerdProxy.Distribute

open Weights

/-!
# Random available selection

`RandomAvailableSelection`, the service a `RandomAvailable` distribution dispatches through.
Its `poll_ready` draws a backend at random by weight and polls it: a ready backend is kept for
the next `call`, a failed one fails the poll, and an unready one is given weight zero for the
rest of the poll, until no backend is left and the poll is pending.  The draws are `rand`'s
`WeightedIndex::sample` (the crate is not part of the sources): what the selection relies on is
that a draw has non-zero weight (`Sampler`), which the crate's way of drawing a value below the
total and taking the position whose running total passes it meets (`Sampler.ofUniform`).  A
panic (a failed `expect`) is an error carrying its message.

* `poll_loop_spec` — from any weights and backends the loop fits, it ends without a panic
  having polled distinct backends of non-zero weight, at most as many as there are, every one
  but the last pending; the last answers the poll; a pending poll has polled every backend of
  non-zero weight; and only the backends polled have changed;
* `poll_ready_random_available` — hence every `poll_ready` with no backend chosen, over the keys
  `Distribution::random_available` accepts, whatever the backends answer and the generator
  draws; and a ready poll is followed by a `call` to the backend that answered.
-/

/-! ### `rand`'s `WeightedIndex` -/

/-- `WeightedIndex<u32>`, by the weights it holds; it is never left with a zero total. -/
structure WeightedIndex where
  weights : List Nat
  total_pos : 0 < weights.sum

/-- `WeightedIndex::new`: the index, once `weighted_index_new` accepts the weights. -/
def WeightedIndex.new (weights : List Nat) : Except WeightedError WeightedIndex :=
  match h : weightedIndexNew weights with
  | .ok () => .ok ⟨weights, ((weighted_index_new_isOk_iff weights).mp (by simp [h])).1⟩
  | .error e => .error e

theorem WeightedIndex.new_eq_ok {ws : List Nat} (h : weightedIndexNew ws = .ok ()) :
    ∃ index, WeightedIndex.new ws = .ok index ∧ index.weights = ws := by
  unfold WeightedIndex.new
  split
  · exact ⟨_, rfl, rfl⟩
  · rename_i e he
    rw [h] at he
    cases he

/-- `WeightedIndex::update_weights` with one new weight, as `rand` 0.9 documents it: an index
    past the weights is invalid input, and a zero total is refused, the index left as it was. -/
def WeightedIndex.updateWeights (index : WeightedIndex) (i w : Nat) :
    Except WeightedError WeightedIndex :=
  if index.weights.length ≤ i then .error .invalidInput
  else if h : 0 < (index.weights.set i w).sum then .ok ⟨index.weights.set i w, h⟩
  else .error .insufficientNonZero

/-- `WeightedIndex::sample` with a generator `ρ`: a position, and the generator after the draw.
    What the selection relies on of `rand` is that a draw is a position of non-zero weight. -/
structure Sampler (ρ : Type) where
  sample : WeightedIndex → ρ → Nat × ρ
  sample_pos : ∀ (index : WeightedIndex) (rng : ρ), 0 < index.weights.getD (sample index rng).1 0

/-- `Uniform::new(0, bound).sample(rng)`: a value below the bound, and the generator after it. -/
structure Uniform (ρ : Type) where
  sample : Nat → ρ → Nat × ρ
  sample_lt : ∀ (bound : Nat) (rng : ρ), 0 < bound → (sample bound rng).1 < bound

/-- `WeightedIndex::sample` as `rand` draws: a value below the total, and the position whose
    running total passes it (`partition_point` over the running totals). -/
def Sampler.ofUniform {ρ : Type} (u : Uniform ρ) : Sampler ρ where
  sample index rng :=
    (pick index.weights (u.sample index.weights.sum rng).1, (u.sample index.weights.sum rng).2)
  sample_pos index rng := pick_pos (u.sample_lt _ rng index.total_pos)

/-! ### Keys -/

/-- `KeyId`: a key's position among the distribution's keys. -/
structure KeyId where
  idx : Nat
  deriving DecidableEq, Repr

/-- `WeightedKey`. -/
structure WeightedKey (K : Type) where
  key : K
  weight : Nat
  deriving DecidableEq, Repr

/-- `ServiceKeys`, by its keys in order: the key of `KeyId::new(i)` is the `i`-th. -/
structure ServiceKeys (K : Type) where
  keys : List K
  deriving DecidableEq, Repr

abbrev WeightedServiceKeys (K : Type) := ServiceKeys (WeightedKey K)

variable {K : Type}

/-- `ServiceKeys::new`: the keys numbered in order. -/
def ServiceKeys.new (keys : List K) : ServiceKeys K := ⟨keys⟩

/-- `ServiceKeys::try_get_id`. -/
def ServiceKeys.tryGetId (s : ServiceKeys K) (idx : Nat) : Option KeyId :=
  if idx < s.keys.length then some ⟨idx⟩ else none

theorem ServiceKeys.try_get_id_eq_some {s : ServiceKeys K} {idx : Nat} {id : KeyId} :
    s.tryGetId idx = some id ↔ idx < s.keys.length ∧ id = ⟨idx⟩ := by
  unfold tryGetId
  split_ifs with h <;> simp [h, eq_comm]

/-- `WeightedServiceKeys::weighted_index`: the keys' weights in order. -/
def ServiceKeys.weightedIndex (s : WeightedServiceKeys K) : Except WeightedError WeightedIndex :=
  WeightedIndex.new (s.keys.map WeightedKey.weight)

/-- The `WeightedServiceKeys` of `Distribution::random_available`: the keys and weights given,
    in order. -/
def weightedKeys (keys : List (K × Nat)) : WeightedServiceKeys K :=
  ServiceKeys.new (keys.map fun p => ⟨p.1, p.2⟩)

/-- `WeightedKeySelector`: the keys, and an index over their weights. -/
structure WeightedKeySelector (K : Type) where
  keys : WeightedServiceKeys K
  index : WeightedIndex

/-- `WeightedServiceKeys::selector`, with its `expect`. -/
def ServiceKeys.selector (s : WeightedServiceKeys K) : Except String (WeightedKeySelector K) :=
  match s.weightedIndex with
  | .ok index => .ok ⟨s, index⟩
  | .error _ => .error "distribution must be valid"

/-- The keys of a `RandomAvailable` distribution make a selector over their weights. -/
theorem selector_weightedKeys {keys : List (K × Nat)}
    (h : Distribution.random_available keys = .ok (.randomAvailable keys)) :
    ∃ index, (weightedKeys keys).selector = .ok ⟨weightedKeys keys, index⟩ ∧
      index.weights = keys.map Prod.snd := by
  unfold Distribution.random_available at h
  split at h
  · cases h
  · -- two or more keys: the weights passed `WeightedIndex::new`
    obtain ⟨⟨⟩, hnew, -⟩ := except_bind_eq_ok.mp h
    have hmap : (weightedKeys keys).keys.map WeightedKey.weight = keys.map Prod.snd := by
      simp [weightedKeys, ServiceKeys.new]
    obtain ⟨index, hindex, hw⟩ := WeightedIndex.new_eq_ok hnew
    refine ⟨index, ?_, hw⟩
    rw [ServiceKeys.selector, ServiceKeys.weightedIndex, hmap, hindex]

section Selector

variable {ρ : Type} (sampler : Sampler ρ)

/-- `WeightedKeySelector::select_weighted`: a drawn key, with its `expect`. -/
def WeightedKeySelector.selectWeighted (sel : WeightedKeySelector K) (rng : ρ) :
    Except String (KeyId × ρ) :=
  match sel.keys.tryGetId (sampler.sample sel.index rng).1 with
  | some id => .ok (id, (sampler.sample sel.index rng).2)
  | none => .error "distrubtion must select a valid backend"

/-- A drawn key has non-zero weight in the selector. -/
theorem WeightedKeySelector.select_weighted_pos {sel : WeightedKeySelector K} {rng rng' : ρ}
    {id : KeyId} (h : sel.selectWeighted sampler rng = .ok (id, rng')) :
    0 < sel.index.weights.getD id.idx 0 := by
  unfold selectWeighted at h
  split at h
  · rename_i id' hid
    obtain ⟨-, rfl⟩ := ServiceKeys.try_get_id_eq_some.mp hid
    cases h
    exact sampler.sample_pos sel.index rng
  · cases h

end Selector

/-- `WeightedKeySelector::disable_backend`: the key's weight set to zero. -/
def WeightedKeySelector.disableBackend (sel : WeightedKeySelector K) (id : KeyId) :
    Except WeightedError (WeightedKeySelector K) :=
  (sel.index.updateWeights id.idx 0).map fun index => { sel with index }

theorem WeightedKeySelector.disable_backend_keys {sel sel' : WeightedKeySelector K}
    {id : KeyId} (h : sel.disableBackend id = .ok sel') : sel'.keys = sel.keys := by
  unfold disableBackend WeightedIndex.updateWeights at h
  split_ifs at h <;> cases h
  rfl

theorem WeightedKeySelector.disable_backend_weights {sel sel' : WeightedKeySelector K}
    {id : KeyId} (h : sel.disableBackend id = .ok sel') :
    sel'.index.weights = sel.index.weights.set id.idx 0 := by
  unfold disableBackend WeightedIndex.updateWeights at h
  split_ifs at h <;> cases h
  rfl

/-! ### The selection -/

/-- What `poll_ready` answers, `Poll<Result<(), E>>`. -/
inductive Readiness (E : Type) where
  | ready
  | failed (error : E)
  | pending
  deriving DecidableEq, Repr

/-- `Poll::is_ready` of an answer that did not fail. -/
def Readiness.isReady {E : Type} : Readiness E → Bool
  | .ready => true
  | _ => false

/-- A backend service: `Service::poll_ready` and `Service::call`, each changing the service. -/
structure Service (S Req E F : Type) where
  pollReady : S → Readiness E × S
  call : S → Req → F × S

/-- `RandomAvailableSelection`: the keys, a backend for every key (the map from `KeyId`, by
    position), the generator, and the backend chosen for the next `call`. -/
structure RandomAvailableSelection (K S ρ : Type) where
  keys : WeightedServiceKeys K
  backends : List S
  rng : ρ
  ready_idx : Option KeyId
  backends_length : backends.length = keys.keys.length

section Selection

variable {S ρ Req E F : Type} (sampler : Sampler ρ) (service : Service S Req E F)

/-- `RandomAvailableSelection::new`: a backend made for every key, none chosen. -/
def RandomAvailableSelection.new (keys : WeightedServiceKeys K) (make_svc : K → S) (rng : ρ) :
    RandomAvailableSelection K S ρ :=
  ⟨keys, keys.keys.map fun k => make_svc k.key, rng, none, List.length_map _⟩

/-- The selection with one backend replaced. -/
def RandomAvailableSelection.setBackend (sel : RandomAvailableSelection K S ρ) (id : KeyId)
    (svc : S) : RandomAvailableSelection K S ρ :=
  { sel with
    backends := sel.backends.set id.idx svc
    backends_length := by rw [List.length_set, sel.backends_length] }

@[simp] theorem RandomAvailableSelection.setBackend_keys (sel : RandomAvailableSelection K S ρ)
    (id : KeyId) (svc : S) : (sel.setBackend id svc).keys = sel.keys := rfl

@[simp] theorem RandomAvailableSelection.setBackend_backends
    (sel : RandomAvailableSelection K S ρ) (id : KeyId) (svc : S) :
    (sel.setBackend id svc).backends = sel.backends.set id.idx svc := rfl

@[simp] theorem RandomAvailableSelection.setBackend_ready_idx
    (sel : RandomAvailableSelection K S ρ) (id : KeyId) (svc : S) :
    (sel.setBackend id svc).ready_idx = sel.ready_idx := rfl

/-- A backend polled, with its `expect`: its answer, and the selection with the backend as the
    poll leaves it. -/
def RandomAvailableSelection.pollBackend (sel : RandomAvailableSelection K S ρ) (id : KeyId) :
    Except String (Readiness E × RandomAvailableSelection K S ρ) :=
  match sel.backends[id.idx]? with
  | some svc => .ok ((service.pollReady svc).1, sel.setBackend id (service.pollReady svc).2)
  | none => .error "distributions must not reference unknown backends"

/-- The `loop` of `poll_ready`, with the backends it polled in order.  A ready backend is chosen,
    a failed one fails the poll, and an unready one is disabled for the rest of the loop, which
    ends (`break`) once disabling fails: the weights would be all zero, or, logged, another
    error. -/
def RandomAvailableSelection.pollLoop (selector : WeightedKeySelector K)
    (sel : RandomAvailableSelection K S ρ) :
    Except String (Readiness E × RandomAvailableSelection K S ρ × List KeyId) :=
  match _drawn : selector.selectWeighted sampler sel.rng with
  | .error msg => .error msg
  | .ok (id, rng) =>
    match ({ sel with rng }).pollBackend service id with
    | .error msg => .error msg
    | .ok (.ready, sel) => .ok (.ready, { sel with ready_idx := some id }, [id])
    | .ok (.failed e, sel) => .ok (.failed e, sel, [id])
    | .ok (.pending, sel) =>
      match _disabled : selector.disableBackend id with
      | .ok selector' =>
        (RandomAvailableSelection.pollLoop selector' sel).map fun out =>
          (out.1, out.2.1, id :: out.2.2)
      | .error _ => .ok (.pending, sel, [id])
termination_by selector.index.weights.countP (0 < ·)
decreasing_by
  -- the drawn backend had non-zero weight, and disabling it zeroes that weight
  have hpos := WeightedKeySelector.select_weighted_pos sampler _drawn
  rw [WeightedKeySelector.disable_backend_weights _disabled]
  have := countP_set_zero hpos
  omega

/-- `poll_ready`, with the backends it polled: ready at once if a backend is already chosen;
    otherwise the loop over a fresh selector. -/
def RandomAvailableSelection.pollReady (sel : RandomAvailableSelection K S ρ) :
    Except String (Readiness E × RandomAvailableSelection K S ρ × List KeyId) :=
  if sel.ready_idx.isSome then .ok (.ready, sel, [])
  else
    match sel.keys.selector with
    | .ok selector => sel.pollLoop sampler service selector
    | .error msg => .error msg

/-- `call`: the request to the chosen backend, the choice taken. -/
def RandomAvailableSelection.call (sel : RandomAvailableSelection K S ρ) (req : Req) :
    Except String (F × RandomAvailableSelection K S ρ) :=
  match sel.ready_idx with
  | none => .error "poll_ready must be called first"
  | some id =>
    match sel.backends[id.idx]? with
    | some svc =>
      .ok ((service.call svc req).1,
        { sel.setBackend id (service.call svc req).2 with ready_idx := none })
    | none => .error "index must exist"

end Selection

/-! ### One poll -/

section Loop

variable {S ρ Req E F : Type} (sampler : Sampler ρ) (service : Service S Req E F)

/-- Backend `id` among the backends `bs`, polled: its answer, and what the poll leaves of it. -/
def polledAt (bs : List S) (id : KeyId) : Option (Readiness E × S) :=
  bs[id.idx]?.map service.pollReady

theorem polledAt_set_ne {bs : List S} {i : Nat} {id : KeyId} (h : i ≠ id.idx) (svc : S) :
    polledAt service (bs.set i svc) id = polledAt service bs id := by
  simp [polledAt, List.getElem?_set_ne h]

/-- A backend the selection holds is polled without a panic. -/
theorem RandomAvailableSelection.poll_backend_ne_error {sel : RandomAvailableSelection K S ρ}
    {id : KeyId} (h : id.idx < sel.backends.length) (msg : String) :
    (sel.pollBackend service id : Except String (Readiness E × _)) ≠ .error msg := by
  simp [pollBackend, List.getElem?_eq_getElem h]

/-- A polled backend answers what its poll gives, and is left as the poll leaves it. -/
theorem RandomAvailableSelection.poll_backend_eq_ok {sel sel' : RandomAvailableSelection K S ρ}
    {id : KeyId} {r : Readiness E} (h : sel.pollBackend service id = .ok (r, sel')) :
    ∃ svc, sel.backends[id.idx]? = some svc ∧ (service.pollReady svc).1 = r ∧
      sel' = sel.setBackend id (service.pollReady svc).2 := by
  unfold pollBackend at h
  split at h
  · rename_i svc hsvc
    simp only [Except.ok.injEq, Prod.mk.injEq] at h
    exact ⟨svc, hsvc, h.1, h.2.symm⟩
  · cases h

/-- Under keys that number as many positions as the selector has weights, a draw is a key. -/
theorem WeightedKeySelector.select_weighted_ne_error (selector : WeightedKeySelector K)
    (hlen : selector.index.weights.length = selector.keys.keys.length) (rng : ρ) (msg : String) :
    selector.selectWeighted sampler rng ≠ .error msg := by
  have hlt := lt_length_of_pos (sampler.sample_pos selector.index rng)
  unfold selectWeighted
  rw [ServiceKeys.tryGetId, if_pos (hlen ▸ hlt)]
  simp

/-- Disabling a key of the selector fails only when no other key has non-zero weight, and
    then with `InsufficientNonZero`. -/
theorem WeightedKeySelector.disable_backend_error {selector : WeightedKeySelector K} {id : KeyId}
    {e : WeightedError} (h : selector.disableBackend id = .error e)
    (hid : id.idx < selector.index.weights.length) :
    e = .insufficientNonZero ∧ (selector.index.weights.set id.idx 0).sum = 0 := by
  unfold disableBackend WeightedIndex.updateWeights at h
  rw [if_neg (Nat.not_le_of_lt hid)] at h
  split_ifs at h with hsum
  · simp [Except.map] at h
  · simp only [Except.map, Except.error.injEq] at h
    exact ⟨h.symm, Nat.eq_zero_of_not_pos hsum⟩

/-- What one loop is shown to do, from the weights `ws` and the selection `sel` it starts with,
    to the answer `r`, the selection `sel'` and the backends `polled`, in order: those polled are
    distinct, of non-zero weight and at most as many as there are; every one but the last was
    pending, and the last gave the answer; a pending loop polled every backend of non-zero
    weight; each polled backend is as its poll left it and the others are as they were; and a
    backend is chosen only on a ready answer, the last one polled. -/
structure Polls (ws : List Nat) (sel : RandomAvailableSelection K S ρ) (r : Readiness E)
    (sel' : RandomAvailableSelection K S ρ) (polled : List KeyId) : Prop where
  pos : ∀ id ∈ polled, 0 < ws.getD id.idx 0
  nodup : polled.Nodup
  length_le : polled.length ≤ ws.countP (0 < ·)
  pending : ∀ id ∈ polled.dropLast,
    (polledAt service sel.backends id).map Prod.fst = some .pending
  last : ∃ id, polled.getLast? = some id ∧
    (polledAt service sel.backends id).map Prod.fst = some r
  all : r = .pending → ∀ i, 0 < ws.getD i 0 → (⟨i⟩ : KeyId) ∈ polled
  after : ∀ id ∈ polled,
    sel'.backends[id.idx]? = (polledAt service sel.backends id).map Prod.snd
  frame : ∀ i, (⟨i⟩ : KeyId) ∉ polled → sel'.backends[i]? = sel.backends[i]?
  keys : sel'.keys = sel.keys
  ready_idx : sel'.ready_idx = if r.isReady then polled.getLast? else sel.ready_idx

/-- The loop's last pass: one backend of non-zero weight polled, and, when it is pending, no
    other backend of non-zero weight left. -/
theorem Polls.single {ws : List Nat} {sel sel' : RandomAvailableSelection K S ρ} {id : KeyId}
    {svc : S} (hpos : 0 < ws.getD id.idx 0) (hsvc : sel.backends[id.idx]? = some svc)
    (hb : sel'.backends = sel.backends.set id.idx (service.pollReady svc).2)
    (hk : sel'.keys = sel.keys)
    (hr : sel'.ready_idx =
      if (service.pollReady svc).1.isReady then some id else sel.ready_idx)
    (hall : (service.pollReady svc).1 = .pending → ∀ i, 0 < ws.getD i 0 → i = id.idx) :
    Polls service ws sel (service.pollReady svc).1 sel' [id] where
  pos := by simpa using hpos
  nodup := List.nodup_singleton id
  length_le := by
    have := countP_set_zero hpos
    simp only [List.length_singleton]
    omega
  pending := by simp
  last := ⟨id, rfl, by simp [polledAt, hsvc]⟩
  all hp i hi := by
    rw [hall hp i hi]
    exact List.mem_singleton_self id
  after := by
    have hlt : id.idx < sel.backends.length := (List.getElem?_eq_some_iff.mp hsvc).1
    rw [List.forall_mem_singleton, hb, List.getElem?_set_self hlt]
    simp [polledAt, hsvc]
  frame i hi := by
    have hne : id.idx ≠ i := fun he => hi (by rw [← he, List.mem_singleton])
    rw [hb, List.getElem?_set_ne hne]
  keys := hk
  ready_idx := by simpa using hr

/-- A pass that found its backend pending, before the rest of the loop over the weights with
    that backend's set to zero. -/
theorem Polls.cons {ws : List Nat} {sel sel₁ sel' : RandomAvailableSelection K S ρ}
    {r : Readiness E} {id : KeyId} {svc : S} {polled : List KeyId}
    (hpos : 0 < ws.getD id.idx 0) (hsvc : sel.backends[id.idx]? = some svc)
    (hpend : (service.pollReady svc).1 = .pending)
    (hb : sel₁.backends = sel.backends.set id.idx (service.pollReady svc).2)
    (hk : sel₁.keys = sel.keys) (hr : sel₁.ready_idx = sel.ready_idx)
    (h : Polls service (ws.set id.idx 0) sel₁ r sel' polled) :
    Polls service ws sel r sel' (id :: polled) := by
  -- the rest of the loop never draws the backend disabled here
  have hne : ∀ j ∈ polled, id.idx ≠ j.idx := by
    intro j hj he
    have := h.pos j hj
    rw [getD_set_zero, if_pos he] at this
    exact Nat.lt_irrefl 0 this
  have hnil : polled ≠ [] := by
    obtain ⟨j, hj, -⟩ := h.last
    rintro rfl
    cases hj
  have hat : ∀ j ∈ polled,
      polledAt service sel₁.backends j = polledAt service sel.backends j :=
    fun j hj => hb ▸ polledAt_set_ne service (hne j hj) _
  refine ⟨?pos, ?nodup, ?length_le, ?pending, ?last, ?all, ?after, ?frame, h.keys.trans hk,
    ?ready⟩
  case pos =>
    refine List.forall_mem_cons.mpr ⟨hpos, fun j hj => ?_⟩
    have := h.pos j hj
    rwa [getD_set_zero, if_neg (hne j hj)] at this
  case nodup => exact List.nodup_cons.mpr ⟨fun hm => hne id hm rfl, h.nodup⟩
  case length_le =>
    have := countP_set_zero hpos
    have := h.length_le
    simp only [List.length_cons]
    omega
  case pending =>
    rw [List.dropLast_cons_of_ne_nil hnil]
    refine List.forall_mem_cons.mpr ⟨by simp [polledAt, hsvc, hpend], fun j hj => ?_⟩
    rw [← hat j (List.dropLast_subset _ hj)]
    exact h.pending j hj
  case last =>
    obtain ⟨j, hj, hans⟩ := h.last
    refine ⟨j, by simp [List.getLast?_cons, hj], ?_⟩
    rw [← hat j (List.mem_of_getLast? hj)]
    exact hans
  case all =>
    intro hp i hi
    by_cases he : id.idx = i
    · subst he
      exact List.mem_cons_self
    · have hi' : 0 < (ws.set id.idx 0).getD i 0 := by rwa [getD_set_zero, if_neg he]
      exact List.mem_cons_of_mem id (h.all hp i hi')
  case after =>
    refine List.forall_mem_cons.mpr ⟨?_, fun j hj => (h.after j hj).trans (by rw [hat j hj])⟩
    have hlt : id.idx < sel.backends.length := (List.getElem?_eq_some_iff.mp hsvc).1
    rw [h.frame id.idx (fun hm => hne id hm rfl), hb, List.getElem?_set_self hlt]
    simp [polledAt, hsvc]
  case frame =>
    intro i hi
    have hne' : id.idx ≠ i := fun he => hi (by rw [← he]; exact List.mem_cons_self)
    rw [h.frame i (fun hm => hi (List.mem_cons_of_mem id hm)), hb, List.getElem?_set_ne hne']
  case ready =>
    obtain ⟨j, hj, -⟩ := h.last
    rw [h.ready_idx, hr]
    simp [List.getLast?_cons, hj]

/-- **The loop.**  From a selector over the selection's keys, one weight for each, the loop ends
    without a panic, and does what `Polls` says. -/
theorem poll_loop_spec (selector : WeightedKeySelector K) (sel : RandomAvailableSelection K S ρ)
    (hkeys : selector.keys = sel.keys)
    (hlen : selector.index.weights.length = sel.keys.keys.length) :
    ∃ r sel' polled, sel.pollLoop sampler service selector = .ok (r, sel', polled) ∧
      Polls service selector.index.weights sel r sel' polled := by
  fun_induction RandomAvailableSelection.pollLoop sampler service selector sel with
  | case1 selector sel msg hdraw =>
    exact absurd hdraw (selector.select_weighted_ne_error sampler (hkeys ▸ hlen) _ _)
  | case2 selector sel id rng hdraw msg hpoll =>
    -- the drawn key names one of the selection's backends
    have hlt : id.idx < sel.backends.length := by
      rw [sel.backends_length, ← hlen]
      exact lt_length_of_pos (selector.select_weighted_pos sampler hdraw)
    exact absurd hpoll (RandomAvailableSelection.poll_backend_ne_error service (by exact hlt) msg)
  | case3 selector sel id rng hdraw sel₁ hpoll =>
    obtain ⟨svc, hsvc, hr, rfl⟩ := RandomAvailableSelection.poll_backend_eq_ok service hpoll
    refine ⟨_, _, _, rfl, ?_⟩
    rw [← hr]
    exact Polls.single service (selector.select_weighted_pos sampler hdraw) hsvc rfl rfl
      (by simp [hr, Readiness.isReady]) (fun hp => by rw [hr] at hp; cases hp)
  | case4 selector sel id rng hdraw e sel₁ hpoll =>
    obtain ⟨svc, hsvc, hr, rfl⟩ := RandomAvailableSelection.poll_backend_eq_ok service hpoll
    refine ⟨_, _, _, rfl, ?_⟩
    rw [← hr]
    exact Polls.single service (selector.select_weighted_pos sampler hdraw) hsvc rfl rfl
      (by simp [hr, Readiness.isReady]) (fun hp => by rw [hr] at hp; cases hp)
  | case5 selector sel id rng hdraw sel₁ hpoll selector' hdisable ih =>
    obtain ⟨svc, hsvc, hr, rfl⟩ := RandomAvailableSelection.poll_backend_eq_ok service hpoll
    -- the rest of the loop runs over the same keys, the drawn one's weight zeroed
    have hw := WeightedKeySelector.disable_backend_weights hdisable
    obtain ⟨r, sel', polled, heq, hpolls⟩ :=
      ih (by rw [WeightedKeySelector.disable_backend_keys hdisable, hkeys]; rfl)
        (by rw [hw, List.length_set, hlen]; rfl)
    refine ⟨r, sel', id :: polled, by rw [heq]; rfl, ?_⟩
    rw [hw] at hpolls
    refine Polls.cons service (selector.select_weighted_pos sampler hdraw) hsvc hr ?_ ?_ ?_
      hpolls <;> rfl
  | case6 selector sel id rng hdraw sel₁ hpoll err hdisable =>
    obtain ⟨svc, hsvc, hr, rfl⟩ := RandomAvailableSelection.poll_backend_eq_ok service hpoll
    have hpos := selector.select_weighted_pos sampler hdraw
    -- disabling the drawn key failed: it was the last key of non-zero weight
    obtain ⟨-, hsum⟩ :=
      WeightedKeySelector.disable_backend_error hdisable (lt_length_of_pos hpos)
    refine ⟨_, _, _, rfl, ?_⟩
    rw [← hr]
    refine Polls.single service hpos hsvc rfl rfl (by simp [hr, Readiness.isReady]) ?_
    intro _ i hi
    by_contra hne
    have := getD_eq_zero_of_sum hsum i
    rw [getD_set_zero, if_neg (Ne.symm hne)] at this
    omega

/-- A chosen backend takes the request, as it is, and the choice is cleared. -/
theorem RandomAvailableSelection.call_of_ready_idx {sel : RandomAvailableSelection K S ρ}
    {id : KeyId} {svc : S} (hid : sel.ready_idx = some id)
    (hsvc : sel.backends[id.idx]? = some svc) (req : Req) :
    sel.call service req = .ok ((service.call svc req).1,
      { sel.setBackend id (service.call svc req).2 with ready_idx := none }) := by
  simp [call, hid, hsvc]

/-- **Random available selection.**  Over the keys `Distribution::random_available` accepts, a
    `poll_ready` with no backend chosen ends without a panic, whatever the backends answer and
    the generator draws, as `Polls` says: it polls only backends of non-zero weight, each at
    most once and so at most as many as there are; every backend but the last it polled was
    pending and the last gave its answer, so it is ready at the first ready backend and fails at
    the first failing one; and it is pending only once every backend of non-zero weight was
    polled and was pending.  After a ready poll, `call` sends the request to the backend polled
    last, as its poll left it, and clears the choice. -/
theorem poll_ready_random_available (keys : List (K × Nat))
    (h : Distribution.random_available keys = .ok (.randomAvailable keys))
    (sel : RandomAvailableSelection K S ρ) (hkeys : sel.keys = weightedKeys keys)
    (hnone : sel.ready_idx = none) :
    ∃ r sel' polled, sel.pollReady sampler service = .ok (r, sel', polled) ∧
      Polls service (keys.map Prod.snd) sel r sel' polled ∧
      ∀ req, r = .ready → ∃ id svc, polled.getLast? = some id ∧
        sel.backends[id.idx]? = some svc ∧
        sel'.call service req = .ok ((service.call (service.pollReady svc).2 req).1,
          { sel'.setBackend id (service.call (service.pollReady svc).2 req).2 with
            ready_idx := none }) := by
  obtain ⟨index, hsel, hw⟩ := selector_weightedKeys h
  have hlen : index.weights.length = sel.keys.keys.length := by
    simp [hw, hkeys, weightedKeys, ServiceKeys.new]
  obtain ⟨r, sel', polled, hloop, hpolls⟩ :=
    poll_loop_spec sampler service ⟨weightedKeys keys, index⟩ sel hkeys.symm hlen
  have hpoll : sel.pollReady sampler service = .ok (r, sel', polled) := by
    rw [RandomAvailableSelection.pollReady, hnone, hkeys, hsel]
    simpa [← hkeys] using hloop
  rw [hw] at hpolls
  refine ⟨r, sel', polled, hpoll, hpolls, fun req hr => ?_⟩
  -- the backend polled last answered ready, and is the one chosen
  obtain ⟨id, hid, hans⟩ := hpolls.last
  obtain ⟨svc, hsvc⟩ : ∃ svc, sel.backends[id.idx]? = some svc := by
    cases hb : sel.backends[id.idx]? with
    | none => simp [polledAt, hb] at hans
    | some svc => exact ⟨svc, rfl⟩
  have hchosen : sel'.ready_idx = some id := by
    rw [hpolls.ready_idx, hr, hid]
    rfl
  have hafter : sel'.backends[id.idx]? = some (service.pollReady svc).2 := by
    rw [hpolls.after id (List.mem_of_getLast? hid)]
    simp [polledAt, hsvc]
  exact ⟨id, svc, hid, hsvc,
    RandomAvailableSelection.call_of_ready_idx service hchosen hafter req⟩

end Loop

/-- Two keys, the second of weight zero, over backends that are never ready, drawn by `rand`'s
    method from a counter. -/
theorem poll_ready_random_available_never_ready :
    Distribution.random_available [((), 1), ((), 0)] =
        .ok (.randomAvailable [((), 1), ((), 0)]) ∧
      (RandomAvailableSelection.new (weightedKeys [((), 1), ((), 0)]) (fun _ => 0) 0 :
        RandomAvailableSelection Unit Nat Nat).keys = weightedKeys [((), 1), ((), 0)] ∧
      (RandomAvailableSelection.new (weightedKeys [((), 1), ((), 0)]) (fun _ => 0) 0 :
        RandomAvailableSelection Unit Nat Nat).ready_idx = none ∧
      ∃ r sel' polled,
        (RandomAvailableSelection.new (weightedKeys [((), 1), ((), 0)]) (fun _ => 0) 0 :
          RandomAvailableSelection Unit Nat Nat).pollReady
            (Sampler.ofUniform ⟨fun bound rng => (rng % bound, rng + 1),
              fun _ _ h => Nat.mod_lt _ h⟩)
            (⟨fun s => (.pending, s + 1), fun s req => (req, s)⟩ : Service Nat Nat Unit Nat) =
          .ok (r, sel', polled) ∧
        Polls (⟨fun s => (.pending, s + 1), fun s req => (req, s)⟩ : Service Nat Nat Unit Nat)
          ([((), 1), ((), 0)].map Prod.snd)
          (RandomAvailableSelection.new (weightedKeys [((), 1), ((), 0)]) (fun _ => 0) 0) r sel'
          polled ∧
        ∀ req, r = .ready → ∃ id svc, polled.getLast? = some id ∧
          (RandomAvailableSelection.new (weightedKeys [((), 1), ((), 0)]) (fun _ => 0) 0 :
            RandomAvailableSelection Unit Nat Nat).backends[id.idx]? = some svc ∧
          sel'.call (⟨fun s => (.pending, s + 1), fun s req => (req, s)⟩ :
              Service Nat Nat Unit Nat) req =
            .ok (req, { sel'.setBackend id (svc + 1) with ready_idx := none }) :=
  ⟨by decide, rfl, rfl, poll_ready_random_available _ _ _ (by decide) _ rfl rfl⟩

end LinkerdProxy.Distribute
