import LinkerdProxy.Distribute.Random
import LinkerdProxy.Lib.Machine

set_option linter.dupNamespace false

namespace LinkerdProxy.Distribute

open Weights Machine

/-!
# The distribute service

`Distribute`, the service a route sends its requests through, over one of three selections: an
`Empty` distribution is never ready; a `FirstAvailable` one polls its backends in order and is
ready at the first ready backend; a `RandomAvailable` one draws them at random by weight
(`Distribute.Random`).  `poll_ready` chooses a backend and `call` sends the request to it,
taking the choice; a `call` with no backend chosen panics.  A panic (a failed `expect`, an
`unreachable!`) is an error carrying its message, and ends the service.

* `poll_from_eq` — the first-available loop as a whole: it stops at the first backend whose
  answer is not pending and gives that answer, leaves the backends it polled as their polls left
  them and the rest untouched, and chooses the backend it stopped at only when it was ready;
* `first_available_poll_ready` — hence `FirstAvailableSelection::poll_ready` with no backend
  chosen, and the `call` after a ready one, which goes to that backend;
* `distribute_contract` — over every run of `poll_ready` and `call` from a `Distribute` built
  from a distribution its constructors return: `poll_ready` never panics, and the only panic
  is a `call` made with no ready poll since the last call, that is, when the caller broke the
  contract of `Service`.
-/

variable {K S ρ Req E F : Type}

/-! ### First available -/

/-- `FirstAvailableSelection`: a backend for every key, in order, and the position of the backend
    chosen for the next `call`. -/
structure FirstAvailableSelection (S : Type) where
  backends : List S
  ready_idx : Option Nat

/-- `FirstAvailableSelection::new`: a backend made for every key, in order, none chosen.  A
    `make_svc` that panics ends it. -/
def FirstAvailableSelection.new (keys : ServiceKeys K) (make_svc : K → Except String S) :
    Except String (FirstAvailableSelection S) := do
  let backends ← keys.keys.mapM make_svc
  pure ⟨backends, none⟩

/-- `Poll::is_pending` of an answer that did not fail. -/
def Readiness.isPending : Readiness E → Bool
  | .pending => true
  | _ => false

section First

variable (service : Service S Req E F)

/-- The `for` loop of `poll_ready`, from the backend at position `idx` on: a ready backend is
    chosen, a failed one fails the poll (`?`), and an unready one is passed over. -/
def FirstAvailableSelection.pollFrom (idx : Nat) : List S → Readiness E × List S × Option Nat
  | [] => (.pending, [], none)
  | svc :: rest =>
    match service.pollReady svc with
    | (.ready, svc) => (.ready, svc :: rest, some idx)
    | (.failed e, svc) => (.failed e, svc :: rest, none)
    | (.pending, svc) =>
      let out := pollFrom (idx + 1) rest
      (out.1, svc :: out.2.1, out.2.2)

/-- `FirstAvailableSelection::poll_ready`: ready at once if a backend is already chosen;
    otherwise the loop over every backend. -/
def FirstAvailableSelection.pollReady (sel : FirstAvailableSelection S) :
    Readiness E × FirstAvailableSelection S :=
  if sel.ready_idx.isSome then (.ready, sel)
  else
    let out := pollFrom service 0 sel.backends
    (out.1, ⟨out.2.1, out.2.2⟩)

/-- `FirstAvailableSelection::call`: the request to the chosen backend, the choice taken. -/
def FirstAvailableSelection.call (sel : FirstAvailableSelection S) (req : Req) :
    Except String (F × FirstAvailableSelection S) :=
  match sel.ready_idx with
  | none => .error "poll_ready must be called first"
  | some idx =>
    match sel.backends[idx]? with
    | some svc =>
      .ok ((service.call svc req).1, ⟨sel.backends.set idx (service.call svc req).2, none⟩)
    | none => .error "index must exist"

/-- The answers the backends' polls give, in order. -/
def answers (bs : List S) : List (Readiness E) :=
  bs.map fun b => (service.pollReady b).1

/-- The position of the first backend whose poll does not answer pending, or the number of
    backends when every one does. -/
def firstAnswered (bs : List S) : Nat :=
  (answers service bs).findIdx fun r => !r.isPending

/-- The answer of that backend, or pending when there is none. -/
def firstAnswer (bs : List S) : Readiness E :=
  (answers service bs).getD (firstAnswered service bs) .pending

/-- The backends after the polls of the first `n + 1` of them. -/
def polledUpTo (bs : List S) (n : Nat) : List S :=
  (bs.take (n + 1)).map (fun b => (service.pollReady b).2) ++ bs.drop (n + 1)

@[simp] theorem answers_cons (b : S) (bs : List S) :
    answers service (b :: bs) = (service.pollReady b).1 :: answers service bs := rfl

theorem firstAnswered_cons (b : S) (bs : List S) :
    firstAnswered service (b :: bs) =
      if (service.pollReady b).1.isPending then firstAnswered service bs + 1 else 0 := by
  simp only [firstAnswered, answers_cons, List.findIdx_cons]
  cases (service.pollReady b).1.isPending <;> rfl

theorem polledUpTo_cons_zero (b : S) (bs : List S) :
    polledUpTo service (b :: bs) 0 = (service.pollReady b).2 :: bs := by
  simp [polledUpTo]

theorem polledUpTo_cons_succ (b : S) (bs : List S) (n : Nat) :
    polledUpTo service (b :: bs) (n + 1) =
      (service.pollReady b).2 :: polledUpTo service bs n := by
  simp [polledUpTo]

/-- **The first-available loop.**  It gives the answer of the first backend whose poll is not
    pending (pending when there is none), leaves every backend up to that one as its poll left it
    and the rest as they were, and chooses that backend exactly when it answered ready. -/
theorem FirstAvailableSelection.poll_from_eq (idx : Nat) (bs : List S) :
    pollFrom service idx bs =
      (firstAnswer service bs, polledUpTo service bs (firstAnswered service bs),
        if (firstAnswer service bs).isReady then some (idx + firstAnswered service bs)
        else none) := by
  induction bs generalizing idx with
  | nil => simp [pollFrom, polledUpTo, firstAnswer, firstAnswered, answers, Readiness.isReady]
  | cons b bs ih =>
    simp only [firstAnswer, firstAnswered_cons]
    -- the loop stops at this backend unless its poll is pending
    rcases hb : service.pollReady b with ⟨_ | e | _, svc⟩
    · simp [pollFrom, hb, Readiness.isPending, Readiness.isReady, polledUpTo_cons_zero]
    · simp [pollFrom, hb, Readiness.isPending, Readiness.isReady, polledUpTo_cons_zero]
    · have hrest := ih (idx + 1)
      rw [Nat.add_assoc, Nat.add_comm 1] at hrest
      simp [pollFrom, hb, Readiness.isPending, polledUpTo_cons_succ, hrest, firstAnswer]

theorem polledUpTo_length (bs : List S) (n : Nat) :
    (polledUpTo service bs n).length = bs.length := by
  simp only [polledUpTo, List.length_append, List.length_map, List.length_take, List.length_drop]
  omega

/-- The backend the loop stopped at, as its poll left it. -/
theorem polledUpTo_getElem? (bs : List S) (n : Nat) :
    (polledUpTo service bs n)[n]? = bs[n]?.map fun b => (service.pollReady b).2 := by
  by_cases hn : n < bs.length
  · rw [polledUpTo, List.getElem?_append_left (by simp; omega)]
    simp [hn]
  · have hlen : bs.length ≤ n := Nat.le_of_not_lt hn
    rw [List.getElem?_eq_none hlen, List.getElem?_eq_none (by rw [polledUpTo_length]; exact hlen)]
    rfl

/-- A ready answer comes from a backend that is there, and that answered ready. -/
theorem firstAnswer_ready {bs : List S} (h : (firstAnswer service bs).isReady = true) :
    ∃ svc, bs[firstAnswered service bs]? = some svc ∧ (service.pollReady svc).1 = .ready := by
  rw [firstAnswer, answers, List.getD_eq_getElem?_getD, List.getElem?_map] at h
  cases hb : bs[firstAnswered service bs]? with
  | none => simp [hb, Readiness.isReady] at h
  | some svc =>
    refine ⟨svc, rfl, ?_⟩
    rw [hb] at h
    cases hr : (service.pollReady svc).1 <;> simp_all [Readiness.isReady]

/-- **First available.**  With no backend chosen, `poll_ready` polls the backends in order up to
    the first whose poll is not pending and gives its answer, pending when every backend is; the
    backends it polled are left as their polls left them and the others as they were; a ready
    answer chooses that backend; and the `call` after it sends the request to that backend, as
    its poll left it, and takes the choice. -/
theorem first_available_poll_ready (sel : FirstAvailableSelection S)
    (hnone : sel.ready_idx = none) :
    sel.pollReady service =
        (firstAnswer service sel.backends,
          ⟨polledUpTo service sel.backends (firstAnswered service sel.backends),
            if (firstAnswer service sel.backends).isReady then
              some (firstAnswered service sel.backends) else none⟩) ∧
      ∀ req, (sel.pollReady service).1 = .ready →
        ∃ svc, sel.backends[firstAnswered service sel.backends]? = some svc ∧
          (sel.pollReady service).2.call service req =
            .ok ((service.call (service.pollReady svc).2 req).1,
              ⟨(polledUpTo service sel.backends (firstAnswered service sel.backends)).set
                (firstAnswered service sel.backends) (service.call (service.pollReady svc).2 req).2,
                none⟩) := by
  have hpoll : sel.pollReady service =
      (firstAnswer service sel.backends,
        ⟨polledUpTo service sel.backends (firstAnswered service sel.backends),
          if (firstAnswer service sel.backends).isReady then
            some (firstAnswered service sel.backends) else none⟩) := by
    simp [FirstAvailableSelection.pollReady, hnone, FirstAvailableSelection.poll_from_eq]
  refine ⟨hpoll, fun req hr => ?_⟩
  rw [hpoll] at hr ⊢
  have hready : (firstAnswer service sel.backends).isReady = true := by
    simp only at hr
    rw [hr]
    rfl
  -- the backend the loop stopped at answered ready, and is the one chosen
  obtain ⟨svc, hsvc, -⟩ := firstAnswer_ready service hready
  refine ⟨svc, hsvc, ?_⟩
  simp [FirstAvailableSelection.call, hready, polledUpTo_getElem?, hsvc]

/-- Two backends, the first not ready and the second ready: the poll passes over the first and
    chooses the second. -/
theorem first_available_poll_ready_second :
    (⟨[0, 5], none⟩ : FirstAvailableSelection Nat).ready_idx = none ∧
      (⟨[0, 5], none⟩ : FirstAvailableSelection Nat).pollReady
          (⟨fun s => (if s = 0 then .pending else .ready, s + 1), fun s req => (req + s, s)⟩ :
            Service Nat Nat Unit Nat) =
        (firstAnswer (⟨fun s => (if s = 0 then .pending else .ready, s + 1),
            fun s req => (req + s, s)⟩ : Service Nat Nat Unit Nat) [0, 5],
          ⟨polledUpTo (⟨fun s => (if s = 0 then .pending else .ready, s + 1),
              fun s req => (req + s, s)⟩ : Service Nat Nat Unit Nat) [0, 5]
              (firstAnswered (⟨fun s => (if s = 0 then .pending else .ready, s + 1),
                fun s req => (req + s, s)⟩ : Service Nat Nat Unit Nat) [0, 5]),
            if (firstAnswer (⟨fun s => (if s = 0 then .pending else .ready, s + 1),
                fun s req => (req + s, s)⟩ : Service Nat Nat Unit Nat) [0, 5]).isReady then
              some (firstAnswered (⟨fun s => (if s = 0 then .pending else .ready, s + 1),
                fun s req => (req + s, s)⟩ : Service Nat Nat Unit Nat) [0, 5])
            else none⟩) ∧
      ∀ req, ((⟨[0, 5], none⟩ : FirstAvailableSelection Nat).pollReady
          (⟨fun s => (if s = 0 then .pending else .ready, s + 1), fun s req => (req + s, s)⟩ :
            Service Nat Nat Unit Nat)).1 = .ready →
        ∃ svc, [0, 5][firstAnswered (⟨fun s => (if s = 0 then .pending else .ready, s + 1),
            fun s req => (req + s, s)⟩ : Service Nat Nat Unit Nat) [0, 5]]? = some svc ∧
          ((⟨[0, 5], none⟩ : FirstAvailableSelection Nat).pollReady
              (⟨fun s => (if s = 0 then .pending else .ready, s + 1),
                fun s req => (req + s, s)⟩ : Service Nat Nat Unit Nat)).2.call
              (⟨fun s => (if s = 0 then .pending else .ready, s + 1),
                fun s req => (req + s, s)⟩ : Service Nat Nat Unit Nat) req =
            .ok (req + (svc + 1),
              ⟨(polledUpTo (⟨fun s => (if s = 0 then .pending else .ready, s + 1),
                  fun s req => (req + s, s)⟩ : Service Nat Nat Unit Nat) [0, 5]
                  (firstAnswered (⟨fun s => (if s = 0 then .pending else .ready, s + 1),
                    fun s req => (req + s, s)⟩ : Service Nat Nat Unit Nat) [0, 5])).set
                (firstAnswered (⟨fun s => (if s = 0 then .pending else .ready, s + 1),
                  fun s req => (req + s, s)⟩ : Service Nat Nat Unit Nat) [0, 5]) (svc + 1),
                none⟩) :=
  ⟨rfl, first_available_poll_ready _ _ rfl⟩

end First

/-! ### The service -/

/-- `Selection`: how a `Distribute` picks its backend. -/
inductive Selection (K S ρ : Type) where
  | empty
  | firstAvailable (s : FirstAvailableSelection S)
  | randomAvailable (s : RandomAvailableSelection K S ρ)

/-- `Distribute`, by its selection. -/
structure Distribute (K S ρ : Type) where
  selection : Selection K S ρ

/-- `Distribute::make_selection`: the backends the distribution needs, made in its key order so
    that the weighted positions line up, with the generator `new_rng` seeds. -/
def Distribute.makeSelection (dist : Distribution K) (make_svc : K → Except String S) (rng : ρ) :
    Except String (Selection K S ρ) :=
  match dist with
  | .empty => .ok .empty
  | .firstAvailable keys =>
    (FirstAvailableSelection.new (ServiceKeys.new keys) make_svc).map Selection.firstAvailable
  | .randomAvailable keys =>
    -- `RandomAvailableSelection::new`: a backend made for every key, in order
    match h : (weightedKeys keys).keys.mapM (fun k => make_svc k.key) with
    | .ok backends =>
      .ok (.randomAvailable ⟨weightedKeys keys, backends, rng, none,
        ((mapM_except_eq_ok_iff _ _ _).mp h).length_eq.symm⟩)
    | .error msg => .error msg

/-- `Distribute::new`. -/
def Distribute.new (dist : Distribution K) (make_svc : K → Except String S) (rng : ρ) :
    Except String (Distribute K S ρ) :=
  (Distribute.makeSelection dist make_svc rng).map fun selection => ⟨selection⟩

section Service

variable (sampler : Sampler ρ) (service : Service S Req E F)

/-- `Distribute::poll_ready`: an empty selection is pending for ever; the others poll their
    backends. -/
def Distribute.pollReady (d : Distribute K S ρ) : Except String (Readiness E × Distribute K S ρ) :=
  match d.selection with
  | .empty => .ok (.pending, d)
  | .firstAvailable s => .ok ((s.pollReady service).1, ⟨.firstAvailable (s.pollReady service).2⟩)
  | .randomAvailable s =>
    (s.pollReady sampler service).map fun out => (out.1, ⟨.randomAvailable out.2.1⟩)

/-- `Distribute::call`: an empty selection is never ready, so a call to it is unreachable. -/
def Distribute.call (d : Distribute K S ρ) (req : Req) : Except String (F × Distribute K S ρ) :=
  match d.selection with
  | .empty => .error "Empty selection is never ready"
  | .firstAvailable s => (s.call service req).map fun out => (out.1, ⟨.firstAvailable out.2⟩)
  | .randomAvailable s => (s.call service req).map fun out => (out.1, ⟨.randomAvailable out.2⟩)

end Service

/-! ### Runs -/

/-- What the owner of a service asks of it. -/
inductive Event (Req : Type) where
  | pollReady
  | call (req : Req)

/-- What the service gives back: a poll's answer, a call's response, or a panic in either, with
    its message. -/
inductive Output (E F : Type) where
  | polled (r : Readiness E)
  | called (rsp : F)
  | poll_panicked (msg : String)
  | call_panicked (msg : String)

/-- A `Distribute` driven by its owner; a panic ends it. -/
def Distribute.machine (sampler : Sampler ρ) (service : Service S Req E F) :
    Machine (Option (Distribute K S ρ)) (Event Req) (Output E F) where
  step
    | none, _ => (none, [])
    | some d, .pollReady =>
      match d.pollReady sampler service with
      | .ok (r, d) => (some d, [.polled r])
      | .error msg => (none, [.poll_panicked msg])
    | some d, .call req =>
      match d.call service req with
      | .ok (rsp, d) => (some d, [.called rsp])
      | .error msg => (none, [.call_panicked msg])

/-- Whether the owner may call, after one more output: a poll's answer says so when it is ready,
    and a call takes it back. -/
def armStep (armed : Bool) : Output E F → Bool
  | .polled r => r.isReady
  | .called _ => false
  | .poll_panicked _ => armed
  | .call_panicked _ => armed

/-- Whether the owner may call after a run's outputs: a poll has answered ready since the last
    call. -/
def armed (os : List (Output E F)) : Bool :=
  os.foldl armStep false

theorem armed_append_singleton (os : List (Output E F)) (o : Output E F) :
    armed (os ++ [o]) = armStep (armed os) o := by
  simp [armed]

/-- The contract's law of one output after the outputs `pre`: a poll never panics, and a call
    panics only when no poll has answered ready since the last call, with the message of a call
    made too early. -/
def ContractLaw (pre : List (Output E F)) : Output E F → Prop
  | .poll_panicked _ => False
  | .call_panicked msg => armed pre = false ∧
      (msg = "poll_ready must be called first" ∨ msg = "Empty selection is never ready")
  | _ => True

/-! ### What every live state keeps -/

/-- What a live selection keeps: a chosen backend is one it holds, and a random selection's keys
    are ones `Distribution::random_available` accepted. -/
def Selection.Valid : Selection K S ρ → Prop
  | .empty => True
  | .firstAvailable s => ∀ i, s.ready_idx = some i → i < s.backends.length
  | .randomAvailable s =>
    (∃ keys, Distribution.random_available keys = .ok (.randomAvailable keys) ∧
      s.keys = weightedKeys keys) ∧
    ∀ id, s.ready_idx = some id → id.idx < s.backends.length

/-- Whether a backend is chosen for the next call. -/
def Selection.chosen : Selection K S ρ → Bool
  | .empty => false
  | .firstAvailable s => s.ready_idx.isSome
  | .randomAvailable s => s.ready_idx.isSome

section Steps

variable (sampler : Sampler ρ) (service : Service S Req E F)

/-- A first-available poll keeps its choice among its backends, and chooses exactly when it is
    ready. -/
theorem FirstAvailableSelection.poll_ready_valid {sel : FirstAvailableSelection S}
    (h : ∀ i, sel.ready_idx = some i → i < sel.backends.length) :
    (∀ i, (sel.pollReady service).2.ready_idx = some i →
      i < (sel.pollReady service).2.backends.length) ∧
    (sel.pollReady service).2.ready_idx.isSome = (sel.pollReady service).1.isReady := by
  unfold pollReady
  split
  · exact ⟨h, by simp_all [Readiness.isReady]⟩
  · simp only [poll_from_eq, polledUpTo_length]
    refine ⟨fun i hi => ?_, by split_ifs <;> simp [*]⟩
    -- a backend is chosen only at a ready answer, which comes from a backend that is there
    split_ifs at hi with hr
    obtain ⟨svc, hsvc, -⟩ := firstAnswer_ready service hr
    cases hi
    simpa using (List.getElem?_eq_some_iff.mp hsvc).1

/-- A random poll over accepted keys never panics, keeps its keys and its choice among its
    backends, and chooses exactly when it is ready. -/
theorem RandomAvailableSelection.poll_ready_valid {sel : RandomAvailableSelection K S ρ}
    {keys : List (K × Nat)}
    (hkeys₀ : Distribution.random_available keys = .ok (.randomAvailable keys))
    (hkeys : sel.keys = weightedKeys keys)
    (h : ∀ id, sel.ready_idx = some id → id.idx < sel.backends.length) :
    ∃ r sel' polled, sel.pollReady sampler service = .ok (r, sel', polled) ∧
      sel'.keys = sel.keys ∧ (∀ id, sel'.ready_idx = some id → id.idx < sel'.backends.length) ∧
      sel'.ready_idx.isSome = r.isReady := by
  cases hidx : sel.ready_idx with
  | some id =>
    exact ⟨.ready, sel, [], by simp [pollReady, hidx], rfl, hidx ▸ h,
      by simp [hidx, Readiness.isReady]⟩
  | none =>
    obtain ⟨index, hsel, hw⟩ := selector_weightedKeys hkeys₀
    have hlen : index.weights.length = sel.keys.keys.length := by
      simp [hw, hkeys, weightedKeys, ServiceKeys.new]
    obtain ⟨r, sel', polled, hloop, hpolls⟩ :=
      poll_loop_spec sampler service ⟨weightedKeys keys, index⟩ sel hkeys.symm hlen
    -- the backend polled last gave the answer, and is the one a ready answer chooses
    obtain ⟨last, hlast, hans⟩ := hpolls.last
    refine ⟨r, sel', polled, ?_, hpolls.keys, fun id hid => ?_, ?_⟩
    · rw [pollReady, hidx, hkeys, hsel]
      simpa [← hkeys] using hloop
    · rw [hpolls.ready_idx, hidx, hlast] at hid
      split_ifs at hid
      cases hid
      obtain ⟨svc, hsvc, -⟩ : ∃ svc, sel.backends[last.idx]? = some svc ∧
          (service.pollReady svc).1 = r := by
        simpa [polledAt] using hans
      rw [sel'.backends_length, hpolls.keys, ← sel.backends_length]
      exact (List.getElem?_eq_some_iff.mp hsvc).1
    · rw [hpolls.ready_idx, hidx, hlast]
      split_ifs with hr <;> simp [hr]

/-- **Poll.**  A valid service's poll never panics, keeps it valid, and leaves a backend chosen
    exactly when it answers ready. -/
theorem Distribute.poll_ready_valid {d : Distribute K S ρ} (h : d.selection.Valid) :
    ∃ r d', d.pollReady sampler service = .ok (r, d') ∧ d'.selection.Valid ∧
      d'.selection.chosen = r.isReady := by
  rcases d with ⟨_ | s | s⟩
  · exact ⟨.pending, _, rfl, trivial, rfl⟩
  · obtain ⟨hv, hch⟩ := FirstAvailableSelection.poll_ready_valid service h
    exact ⟨_, _, rfl, hv, hch⟩
  · obtain ⟨⟨keys, hkeys₀, hkeys⟩, hidx⟩ := h
    obtain ⟨r, sel', polled, hpoll, hk, hv, hch⟩ :=
      RandomAvailableSelection.poll_ready_valid sampler service hkeys₀ hkeys hidx
    refine ⟨r, ⟨.randomAvailable sel'⟩, by simp [pollReady, hpoll], ⟨⟨keys, hkeys₀, ?_⟩, hv⟩, hch⟩
    rw [hk, hkeys]

/-- **Call.**  A valid service's call either sends the request on, leaving it valid with no
    backend chosen, or panics because none was chosen, with the message of a call made too
    early. -/
theorem Distribute.call_valid {d : Distribute K S ρ} (h : d.selection.Valid) (req : Req) :
    (∃ rsp d', d.call service req = .ok (rsp, d') ∧ d'.selection.Valid ∧
      d'.selection.chosen = false) ∨
    ∃ msg, d.call service req = .error msg ∧ d.selection.chosen = false ∧
      (msg = "poll_ready must be called first" ∨ msg = "Empty selection is never ready") := by
  rcases d with ⟨_ | s | s⟩
  · exact .inr ⟨_, rfl, rfl, .inr rfl⟩
  · cases hidx : s.ready_idx with
    | none => exact .inr ⟨_, by simp [call, FirstAvailableSelection.call, hidx], by
        simp [Selection.chosen, hidx], .inl rfl⟩
    | some i =>
      -- the chosen backend is one the selection holds
      obtain ⟨svc, hsvc⟩ : ∃ svc, s.backends[i]? = some svc :=
        ⟨_, List.getElem?_eq_getElem (h i hidx)⟩
      refine .inl ⟨(service.call svc req).1,
        ⟨.firstAvailable ⟨s.backends.set i (service.call svc req).2, none⟩⟩,
        by simp [call, FirstAvailableSelection.call, hidx, hsvc], ?_, rfl⟩
      intro j hj
      cases hj
  · obtain ⟨hkeys, hidx⟩ := h
    cases hid : s.ready_idx with
    | none => exact .inr ⟨_, by simp [call, RandomAvailableSelection.call, hid], by
        simp [Selection.chosen, hid], .inl rfl⟩
    | some id =>
      obtain ⟨svc, hsvc⟩ : ∃ svc, s.backends[id.idx]? = some svc :=
        ⟨_, List.getElem?_eq_getElem (hidx id hid)⟩
      refine .inl ⟨(service.call svc req).1,
        ⟨.randomAvailable { s.setBackend id (service.call svc req).2 with ready_idx := none }⟩,
        by simp [call, RandomAvailableSelection.call_of_ready_idx service hid hsvc],
        ⟨hkeys, ?_⟩, rfl⟩
      intro j hj
      cases hj

end Steps

/-! ### Built services -/

/-- The keys of a `RandomAvailable` distribution `random_available` returns are the ones it was
    given. -/
theorem random_available_randomAvailable {keys keys' : List (K × Nat)}
    (h : Distribution.random_available keys' = .ok (.randomAvailable keys)) : keys' = keys := by
  unfold Distribution.random_available at h
  split at h
  · cases h
  · obtain ⟨⟨⟩, -, h⟩ := except_bind_eq_ok.mp h
    cases h
    rfl

theorem first_available_ne_randomAvailable (keys' : List K) (keys : List (K × Nat)) :
    Distribution.first_available keys' ≠ .randomAvailable keys := by
  unfold Distribution.first_available
  split <;> simp

/-- A service built from a distribution its constructors return is valid, with no backend
    chosen. -/
theorem Distribute.new_valid {dist : Distribution K}
    (hdist : (∃ keys, dist = Distribution.first_available keys) ∨
      ∃ keys, Distribution.random_available keys = .ok dist)
    {make_svc : K → Except String S} {rng : ρ} {d : Distribute K S ρ}
    (hnew : Distribute.new dist make_svc rng = .ok d) :
    d.selection.Valid ∧ d.selection.chosen = false := by
  obtain ⟨sel, hsel, rfl⟩ := except_map_eq_ok.mp hnew
  cases dist with
  | empty =>
    simp only [Distribute.makeSelection, Except.ok.injEq] at hsel
    subst hsel
    exact ⟨trivial, rfl⟩
  | firstAvailable keys =>
    simp only [Distribute.makeSelection, FirstAvailableSelection.new] at hsel
    obtain ⟨first, hfirst, rfl⟩ := except_map_eq_ok.mp hsel
    obtain ⟨backends, -, hfirst⟩ := except_bind_eq_ok.mp hfirst
    simp only [except_pure_eq, Except.ok.injEq] at hfirst
    subst hfirst
    exact ⟨fun i hi => (by cases hi), rfl⟩
  | randomAvailable keys =>
    -- only `random_available` returns such a distribution, over the keys it checked
    have hkeys : Distribution.random_available keys = .ok (.randomAvailable keys) := by
      rcases hdist with ⟨keys', hk⟩ | ⟨keys', hk⟩
      · exact absurd hk.symm (first_available_ne_randomAvailable keys' keys)
      · rwa [random_available_randomAvailable hk] at hk
    simp only [Distribute.makeSelection] at hsel
    split at hsel
    · cases hsel
      exact ⟨⟨⟨keys, hkeys, rfl⟩, fun id hid => by cases hid⟩, rfl⟩
    · cases hsel

section Run

variable (sampler : Sampler ρ) (service : Service S Req E F)

/-- What every run keeps: its outputs obey the contract's law, and a live service is valid, with
    a backend chosen exactly when its owner may call. -/
structure Live (os : List (Output E F)) (s : Option (Distribute K S ρ)) : Prop where
  law : TraceLaw ContractLaw os
  valid : ∀ d, s = some d → d.selection.Valid ∧ armed os = d.selection.chosen

/-- Every step keeps what a run keeps. -/
theorem Live.step {os : List (Output E F)} {s : Option (Distribute K S ρ)} (h : Live os s)
    (e : Event Req) :
    Live (os ++ ((Distribute.machine sampler service).step s e).2)
      ((Distribute.machine sampler service).step s e).1 := by
  rcases s with _ | d
  · -- a service that panicked does nothing more
    exact ⟨by simpa [Distribute.machine] using h.law, fun d hd => by cases hd⟩
  obtain ⟨hv, harm⟩ := h.valid d rfl
  cases e with
  | pollReady =>
    obtain ⟨r, d', hpoll, hv', hch⟩ := Distribute.poll_ready_valid sampler service hv
    simp only [Distribute.machine, hpoll]
    refine ⟨(trace_law_append_singleton _ _ _).mpr ⟨h.law, trivial⟩, ?_⟩
    rintro _ ⟨⟩
    exact ⟨hv', by rw [armed_append_singleton, armStep, hch]⟩
  | call req =>
    rcases Distribute.call_valid service hv req with
      ⟨rsp, d', hcall, hv', hch⟩ | ⟨msg, hcall, hch, hmsg⟩
    · simp only [Distribute.machine, hcall]
      refine ⟨(trace_law_append_singleton _ _ _).mpr ⟨h.law, trivial⟩, ?_⟩
      rintro _ ⟨⟩
      exact ⟨hv', by rw [armed_append_singleton, armStep, hch]⟩
    · -- the call panicked: nothing was chosen, so the owner had no ready poll to call on
      simp only [Distribute.machine, hcall]
      refine ⟨(trace_law_append_singleton _ _ _).mpr ⟨h.law, harm.trans hch, hmsg⟩, ?_⟩
      rintro _ ⟨⟩

/-- **The contract of `Distribute`.**  Over every run of `poll_ready` and `call` from a service
    built from a distribution `Distribution::first_available` or `random_available` returns,
    with any backends and any draws: `poll_ready` never panics, and a `call` panics only when no
    poll has answered ready since the last call, because no backend is chosen (or, for an empty
    distribution, none ever can be).  So an owner that calls only after a ready poll never sees
    a panic: not from an `expect` on a backend index, nor on the weights. -/
theorem distribute_contract (dist : Distribution K)
    (hdist : (∃ keys, dist = Distribution.first_available keys) ∨
      ∃ keys, Distribution.random_available keys = .ok dist)
    (make_svc : K → Except String S) (rng : ρ) (d : Distribute K S ρ)
    (hnew : Distribute.new dist make_svc rng = .ok d) (events : List (Event Req)) :
    TraceLaw ContractLaw ((Distribute.machine sampler service).run (some d) events).2 := by
  obtain ⟨hv, hch⟩ := Distribute.new_valid hdist hnew
  have h0 : Live ([] : List (Output E F)) (some d) :=
    ⟨trace_law_nil _, fun d' hd' => by cases hd'; exact ⟨hv, by rw [hch]; rfl⟩⟩
  have hrun := run_trace_invariant (Distribute.machine sampler service) (fun _ => True) Live
    (fun _ _ e _ h => h.step sampler service e) events [] (some d) (fun _ _ => trivial) h0
  simpa using hrun.law

/-- Two backends in order, driven by an owner that calls before polling, then polls, then calls
    again. -/
theorem distribute_contract_call_first :
    ((∃ keys, Distribution.first_available [(), ()] = Distribution.first_available keys) ∨
        ∃ keys, Distribution.random_available keys = .ok (Distribution.first_available [(), ()])) ∧
      Distribute.new (Distribution.first_available [(), ()]) (fun _ => .ok 0) (0 : Nat) =
        .ok ⟨.firstAvailable ⟨[0, 0], none⟩⟩ ∧
      TraceLaw ContractLaw
        ((Distribute.machine (Sampler.ofUniform ⟨fun bound rng => (rng % bound, rng + 1),
            fun _ _ h => Nat.mod_lt _ h⟩)
          (⟨fun s => (.ready, s + 1), fun s req => (req, s)⟩ : Service Nat Nat Unit Nat)).run
          (some (⟨.firstAvailable ⟨[0, 0], none⟩⟩ : Distribute Unit Nat Nat))
          [.call 1, .pollReady, .call 2]).2 :=
  ⟨.inl ⟨_, rfl⟩, rfl, distribute_contract _ _ (Distribution.first_available [(), ()])
    (.inl ⟨_, rfl⟩) (fun _ => .ok 0) 0 _ rfl _⟩

end Run

end LinkerdProxy.Distribute
