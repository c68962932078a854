import LinkerdProxy.Lib.Machine
import LinkerdProxy.Breaker.SuccessRate

namespace LinkerdProxy.Retry

open LinkerdProxy.Breaker (USIZE_MOD)

/-!
# Replayable request bodies (`http::retry::replay`)

A `ReplayBody` wraps a request body so that a retry can send it again: the body that is being
polled records the data it reads from the inner body, and when it is dropped its state passes,
through a shared slot, to the next clone to be polled, which first replays the recorded data
and then goes on reading the inner body.  At most `max_bytes` are recorded: the body that crosses
the limit discards the record and goes on, and later clones fail with `Capped`.

The system is the shared state with the body that currently holds it.  The code requires that a
body be dropped before the next one is first polled; a clone's fields do not depend on when or
from which body it was cloned, so such a schedule is a sequence of polls of the active body and
of `retry`s, which drop the active body and make a clone active.

* `World.Inv` — the one body state sits in the active body or in the shared slot, and its record
  is the data read from the inner body so far, or empty once capped;
* `first_poll_capped` — once capped, a retry's first frame is `Err(Capped)`;
* `replay_duplicates_first_chunk` — a clone polled first, with nothing recorded yet, yields its
  first chunk twice.
-/

/-- A frame of an HTTP body (`http_body::Frame`): data or trailers. -/
inductive Frame (D T : Type) where
  | data (d : D)
  | trailers (t : T)
  deriving DecidableEq, Repr

/-- The inner body, as the frames it has yet to yield; `ended` once it has returned `None` or
    its trailers.  Polling it again is refused (`hyper`'s channel body panics). -/
structure Inner (β T : Type) where
  frames : List (Frame (List β) T)
  ended : Bool
  deriving DecidableEq, Repr

variable {β T : Type}

/-- `Body::poll_frame` of the inner body; `none` when it is polled after it ended. -/
def Inner.pollFrame (b : Inner β T) : Option (Option (Frame (List β) T) × Inner β T) :=
  if b.ended then none
  else
    match b.frames with
    | [] => some (none, ⟨[], true⟩)
    | .data d :: fs => some (some (.data d), ⟨fs, false⟩)
    | .trailers t :: fs => some (some (.trailers t), ⟨fs, true⟩)

/-- The inner body with data chunks `ds` and then, optionally, trailers. -/
def Inner.ofBody (ds : List (List β)) (t : Option T) : Inner β T :=
  ⟨ds.map .data ++ t.toList.map .trailers, false⟩

/-- `Data`: a chunk read from the inner body, or the whole record when replaying. -/
inductive Data (β : Type) where
  | initial (bytes : List β)
  | replay (bufs : List (List β))
  deriving DecidableEq, Repr

/-- The bytes a data frame carries. -/
def Data.content : Data β → List β
  | .initial bytes => bytes
  | .replay bufs => bufs.flatten

/-- `Replay::remaining`. -/
def remaining (bufs : List (List β)) : Nat := (bufs.map List.length).sum

/-- `Capped`: the record was discarded after reaching the limit. -/
structure Capped where
  deriving DecidableEq, Repr

/-- What `ReplayBody::poll_frame` returns when ready: the end of the stream, or a frame, or
    `Capped`. -/
abbrev Polled (β T : Type) := Option (Except Capped (Frame (Data β) T))

/-- `BodyState`: the record, the trailers seen, the inner body, whether it completed, and the
    bytes that may still be recorded, plus one. -/
structure BodyState (β T : Type) where
  replay : List (List β)
  trailers : Option T
  rest : Inner β T
  is_completed : Bool
  max_bytes : Nat
  deriving DecidableEq, Repr

/-- `BodyState::is_capped`. -/
def BodyState.isCapped (s : BodyState β T) : Bool := s.max_bytes == 0

/-- `BodyState::record_bytes`: count the chunk against the limit; record it while under the
    limit, and discard the record when the limit is reached. -/
def BodyState.recordBytes (s : BodyState β T) (data : List β) : Data β × BodyState β T :=
  let length := data.length
  -- `saturating_sub`
  let s := { s with max_bytes := s.max_bytes - length }
  if s.isCapped then
    let s := if remaining s.replay > 0 then { s with replay := [] } else s
    (.initial data, s)
  else
    (.initial data, { s with replay := s.replay ++ [data] })

/-- The end of `poll_frame`: unless the inner body completed, poll it and remember its end, its
    trailers, and its data. -/
def BodyState.pollInner (state : BodyState β T) : Option (Polled β T × BodyState β T) :=
  if state.is_completed then some (none, state)
  else do
    let (frame, rest) ← state.rest.pollFrame
    match frame with
    | none => some (none, { state with rest, is_completed := true })
    | some (.data data) =>
      let (chunk, state) := { state with rest }.recordBytes data
      some (some (.ok (.data chunk)), state)
    | some (.trailers t) =>
      some (some (.ok (.trailers t)), { state with rest, trailers := some t, is_completed := true })

/-- A `ReplayBody`: the state if this body holds it, and whether it has yet to replay the
    record and the trailers. -/
structure ReplayBody (β T : Type) where
  state : Option (BodyState β T)
  replay_body : Bool
  replay_trailers : Bool
  deriving DecidableEq, Repr

/-- `acquire_state`: this body's state, or the shared one, which it takes; `none` is the panic
    "missing body state". -/
def acquireState (state shared : Option (BodyState β T)) :
    Option (BodyState β T × Option (BodyState β T)) :=
  match state with
  | some s => some (s, shared)
  | none =>
    match shared with
    | some s => some (s, none)
    | none => none

/-- `ReplayBody::poll_frame`, with the shared slot; `none` is a panic. -/
def ReplayBody.pollFrame (this : ReplayBody β T) (shared : Option (BodyState β T)) :
    Option (Polled β T × ReplayBody β T × Option (BodyState β T)) := do
  let (state, shared) ← acquireState this.state shared
  if this.replay_body && remaining state.replay > 0 then
    -- replay the record once
    some (some (.ok (.data (.replay state.replay))), ⟨some state, false, this.replay_trailers⟩,
      shared)
  else if this.replay_body && state.isCapped then
    some (some (.error ⟨⟩), ⟨some state, this.replay_body, this.replay_trailers⟩, shared)
  else
    match this.replay_trailers, state.trailers with
    | true, some t => some (some (.ok (.trailers t)), ⟨some state, this.replay_body, false⟩, shared)
    | _, _ => do
      -- `replay_trailers` is cleared whether or not there were trailers to replay
      let (r, state) ← state.pollInner
      some (r, ⟨some state, this.replay_body, false⟩, shared)

/-- `Clone for ReplayBody`: no state, and everything to replay. -/
def ReplayBody.clone : ReplayBody β T := ⟨none, true, true⟩

/-- `Drop for ReplayBody`: a body holding the state puts it back in the shared slot. -/
def ReplayBody.drop (this : ReplayBody β T) (shared : Option (BodyState β T)) :
    Option (BodyState β T) :=
  match this.state with
  | some s => some s
  | none => shared

/-- `ReplayBody::try_new`, given the inner body's size-hint lower bound: refuse a body that is
    known to be too long; otherwise hold the state, with room for `max_bytes + 1` (a `usize`). -/
def tryNew (body : Inner β T) (size_hint_lower max_bytes : Nat) :
    Except (Inner β T) (ReplayBody β T × Option (BodyState β T)) :=
  if size_hint_lower > max_bytes then .error body
  else .ok (⟨some ⟨[], none, body, false, (max_bytes + 1) % USIZE_MOD⟩, false, false⟩, none)

/-! ### The system: the active body and the shared slot -/

/-- The body being polled and the shared slot. -/
structure World (β T : Type) where
  active : ReplayBody β T
  shared : Option (BodyState β T)
  deriving DecidableEq, Repr

/-- A poll of the active body, or a retry: the active body is dropped and a clone of it,
    made at any earlier time, becomes active. -/
inductive Event where
  | poll
  | retry
  deriving DecidableEq, Repr

def World.step (w : World β T) : Event → Option (World β T) × List (Polled β T)
  | .poll =>
    match w.active.pollFrame w.shared with
    | some (r, active, shared) => (some ⟨active, shared⟩, [r])
    | none => (none, [])
  | .retry => (some ⟨ReplayBody.clone, w.active.drop w.shared⟩, [])

/-- The system as a machine; `none` is the state after a panic. -/
def machine : Machine (Option (World β T)) Event (Polled β T) where
  step
    | some w, e => w.step e
    | none, _ => (none, [])

/-- The system right after `try_new` accepted the body. -/
def World.init (body : Inner β T) (max_bytes : Nat) : World β T :=
  ⟨⟨some ⟨[], none, body, false, (max_bytes + 1) % USIZE_MOD⟩, false, false⟩, none⟩

/-! ### What the state records -/

/-- The data chunks among frames. -/
def dataChunks (fs : List (Frame (List β) T)) : List (List β) :=
  fs.filterMap fun | .data d => some d | .trailers _ => none

/-- The last trailers among frames. -/
def trailersOf (fs : List (Frame (List β) T)) : Option T :=
  (fs.filterMap fun | .data _ => none | .trailers t => some t).getLast?

@[simp] theorem dataChunks_nil : dataChunks ([] : List (Frame (List β) T)) = [] := rfl

@[simp] theorem dataChunks_append_data (fs : List (Frame (List β) T)) (d : List β) :
    dataChunks (fs ++ [.data d]) = dataChunks fs ++ [d] := by
  simp [dataChunks]

@[simp] theorem dataChunks_append_trailers (fs : List (Frame (List β) T)) (t : T) :
    dataChunks (fs ++ [.trailers t]) = dataChunks fs := by
  simp [dataChunks]

@[simp] theorem trailersOf_nil : trailersOf ([] : List (Frame (List β) T)) = none := rfl

@[simp] theorem trailersOf_append_data (fs : List (Frame (List β) T)) (d : List β) :
    trailersOf (fs ++ [.data d]) = trailersOf fs := by
  simp [trailersOf]

@[simp] theorem trailersOf_append_trailers (fs : List (Frame (List β) T)) (t : T) :
    trailersOf (fs ++ [.trailers t]) = some t := by
  simp [trailersOf]

@[simp] theorem remaining_append (a b : List (List β)) :
    remaining (a ++ b) = remaining a + remaining b := by
  simp [remaining]

@[simp] theorem remaining_singleton (d : List β) : remaining [d] = d.length := by
  simp [remaining]

/-- A body state after the frames `consumed` were read from the inner body, with room for `m0`
    bytes at the start: the room left, a record of exactly the data read while there is room,
    an empty record once capped, the trailers read, and `is_completed` tracking the end of the
    inner body. -/
structure Recorded (m0 : Nat) (consumed : List (Frame (List β) T)) (s : BodyState β T) :
    Prop where
  max_bytes_eq : s.max_bytes = m0 - remaining (dataChunks consumed)
  replay_eq : 0 < s.max_bytes → s.replay = dataChunks consumed
  replay_empty : s.max_bytes = 0 → remaining s.replay = 0
  trailers_eq : s.trailers = trailersOf consumed
  completed_eq : s.is_completed = s.rest.ended

/-- The state of a body whose inner body started with the frames `F0`. -/
def StateInv (F0 : List (Frame (List β) T)) (m0 : Nat) (s : BodyState β T) : Prop :=
  ∃ consumed, consumed ++ s.rest.frames = F0 ∧ Recorded m0 consumed s

/-- `record_bytes` as one update: the room shrinks by the chunk, and the record grows by the
    chunk while there is room left, or is emptied when the room runs out. -/
theorem record_bytes_eq (s : BodyState β T) (d : List β) :
    s.recordBytes d = (.initial d, { s with
      max_bytes := s.max_bytes - d.length
      replay :=
        if s.max_bytes - d.length = 0 then (if remaining s.replay > 0 then [] else s.replay)
        else s.replay ++ [d] }) := by
  unfold BodyState.recordBytes BodyState.isCapped
  dsimp only
  by_cases h : s.max_bytes - d.length = 0
  · by_cases hr : remaining s.replay > 0 <;> simp [h, hr]
  · simp [h]

/-- Under the limit the chunk is appended to the record; at the limit the record is empty. -/
theorem record_bytes_replay (s : BodyState β T) (d : List β) :
    (0 < s.max_bytes - d.length → (s.recordBytes d).2.replay = s.replay ++ [d]) ∧
    (s.max_bytes - d.length = 0 → remaining (s.recordBytes d).2.replay = 0) := by
  rw [record_bytes_eq]
  constructor
  · intro hpos
    simp only [if_neg (Nat.pos_iff_ne_zero.mp hpos)]
  · intro hzero
    simp only [if_pos hzero]
    split
    · rfl
    · omega

theorem Recorded.recordBytes {m0 : Nat} {consumed : List (Frame (List β) T)}
    {s : BodyState β T} (hs : Recorded m0 consumed s) (hc : s.is_completed = false)
    (rest : Inner β T) (hrest : rest.ended = false) (d : List β) :
    Recorded m0 (consumed ++ [.data d]) ({ s with rest }.recordBytes d).2 := by
  obtain ⟨hmax, hrep, -, htr, -⟩ := hs
  have hroom := record_bytes_replay { s with rest } d
  constructor
  · -- the room shrinks by the chunk, as the count of data read grows by it
    rw [record_bytes_eq, dataChunks_append_data, remaining_append, remaining_singleton]
    simp only [hmax]
    omega
  · intro hpos
    rw [record_bytes_eq] at hpos
    simp only at hpos
    rw [hroom.1 hpos, dataChunks_append_data, hrep (by omega)]
  · intro hzero
    rw [record_bytes_eq] at hzero
    exact hroom.2 hzero
  · rw [record_bytes_eq, trailersOf_append_data]
    exact htr
  · rw [record_bytes_eq]
    simp only
    rw [hc, hrest]

/-! ### One poll of the inner body -/

theorem poll_inner_of_completed (s : BodyState β T) (h : s.is_completed = true) :
    s.pollInner = some (none, s) := by
  simp [BodyState.pollInner, h]

/-- What polling the inner body does, from a state that is not completed and whose inner body
    has not ended. -/
theorem poll_inner_cases (s : BodyState β T) (hc : s.is_completed = false)
    (he : s.rest.ended = false) :
    (s.rest.frames = [] ∧
      s.pollInner = some (none, { s with rest := ⟨[], true⟩, is_completed := true })) ∨
    (∃ d fs, s.rest.frames = .data d :: fs ∧
      s.pollInner = some (some (.ok (.data (.initial d))),
        ({ s with rest := ⟨fs, false⟩ }.recordBytes d).2)) ∨
    (∃ t fs, s.rest.frames = .trailers t :: fs ∧
      s.pollInner = some (some (.ok (.trailers t)),
        { s with rest := ⟨fs, true⟩, trailers := some t, is_completed := true })) := by
  simp only [BodyState.pollInner, hc, Inner.pollFrame, he, Bool.false_eq_true, if_false]
  cases hf : s.rest.frames with
  | nil => exact .inl ⟨rfl, rfl⟩
  | cons f fs =>
    cases f with
    | data d =>
      refine .inr (.inl ⟨d, fs, rfl, ?_⟩)
      simp only [record_bytes_eq]
      rfl
    | trailers t => exact .inr (.inr ⟨t, fs, rfl, rfl⟩)

/-- The inner body's end is recorded as completion, with nothing more read. -/
theorem Recorded.finish {m0 : Nat} {consumed : List (Frame (List β) T)} {s : BodyState β T}
    (hs : Recorded m0 consumed s) :
    Recorded m0 consumed { s with rest := ⟨[], true⟩, is_completed := true } :=
  ⟨hs.max_bytes_eq, hs.replay_eq, hs.replay_empty, hs.trailers_eq, rfl⟩

/-- Trailers are remembered and complete the body. -/
theorem Recorded.trailers {m0 : Nat} {consumed : List (Frame (List β) T)} {s : BodyState β T}
    (hs : Recorded m0 consumed s) (t : T) (fs : List (Frame (List β) T)) :
    Recorded m0 (consumed ++ [.trailers t])
      { s with rest := ⟨fs, true⟩, trailers := some t, is_completed := true } := by
  obtain ⟨hmax, hrep, hempty, -, -⟩ := hs
  refine ⟨?_, ?_, hempty, ?_, rfl⟩
  · rw [dataChunks_append_trailers]
    exact hmax
  · rw [dataChunks_append_trailers]
    exact hrep
  · rw [trailersOf_append_trailers]

/-- **One poll of the inner body.**  From a recorded state, polling the inner body never
    panics (it is only polled while not completed, hence before it ended) and keeps the state
    recorded. -/
theorem StateInv.pollInner {F0 : List (Frame (List β) T)} {m0 : Nat} {s : BodyState β T}
    (hs : StateInv F0 m0 s) : ∃ r s', s.pollInner = some (r, s') ∧ StateInv F0 m0 s' := by
  obtain ⟨consumed, hF, hrec⟩ := hs
  cases hc : s.is_completed with
  | true => exact ⟨none, s, poll_inner_of_completed s hc, consumed, hF, hrec⟩
  | false =>
    have he : s.rest.ended = false := by rw [← hrec.completed_eq, hc]
    rcases poll_inner_cases s hc he with ⟨hnil, heq⟩ | ⟨d, fs, hfr, heq⟩ | ⟨t, fs, hfr, heq⟩
    · -- the inner body ends
      refine ⟨_, _, heq, consumed, ?_, hrec.finish⟩
      rw [← hF, hnil]
    · -- a chunk of data, counted against the limit
      refine ⟨_, _, heq, consumed ++ [.data d], ?_, hrec.recordBytes hc ⟨fs, false⟩ rfl d⟩
      rw [record_bytes_eq, ← hF, hfr]
      simp
    · -- the trailers
      refine ⟨_, _, heq, consumed ++ [.trailers t], ?_, hrec.trailers t fs⟩
      rw [← hF, hfr]
      simp

/-! ### The system invariant -/

/-- The body state `s` is held by the active body or by the shared slot, not by both. -/
def World.Holds (w : World β T) (s : BodyState β T) : Prop :=
  (w.active.state = some s ∧ w.shared = none) ∨ (w.active.state = none ∧ w.shared = some s)

/-- The system invariant: one body state, held once, recording what was read from the inner
    body that started with the frames `F0`, with room for `m0` bytes at the start. -/
def World.Inv (F0 : List (Frame (List β) T)) (m0 : Nat) (w : World β T) : Prop :=
  ∃ s, w.Holds s ∧ StateInv F0 m0 s

/-- A poll of the active body finds the one state. -/
theorem acquire_state_of_holds {w : World β T} {s : BodyState β T} (h : w.Holds s) :
    acquireState w.active.state w.shared = some (s, none) := by
  rcases h with ⟨ha, hs⟩ | ⟨ha, hs⟩
  · rw [ha, hs]
    rfl
  · rw [ha, hs]
    rfl

/-- **One poll.**  Once the state is acquired, a poll of a replay body never panics and leaves
    the body holding a recorded state. -/
theorem poll_frame_of_acquire {F0 : List (Frame (List β) T)} {m0 : Nat} {this : ReplayBody β T}
    {shared : Option (BodyState β T)} {s : BodyState β T}
    (h : acquireState this.state shared = some (s, none)) (hs : StateInv F0 m0 s) :
    ∃ r this' s', this.pollFrame shared = some (r, this', none) ∧ this'.state = some s' ∧
      StateInv F0 m0 s' := by
  unfold ReplayBody.pollFrame
  rw [h]
  simp only [Option.bind_eq_bind, Option.bind_some]
  split
  · -- the record is replayed
    exact ⟨_, _, s, rfl, rfl, hs⟩
  · split
    · -- capped
      exact ⟨_, _, s, rfl, rfl, hs⟩
    · split
      · -- the trailers are replayed
        exact ⟨_, _, s, rfl, rfl, hs⟩
      · -- the inner body is polled
        obtain ⟨r, s', hpoll, hs'⟩ := hs.pollInner
        rw [hpoll]
        exact ⟨_, _, s', rfl, rfl, hs'⟩

/-- **Step lemma.**  Every poll and every retry keeps the invariant and does not panic. -/
theorem World.Inv.step {F0 : List (Frame (List β) T)} {m0 : Nat} {w : World β T}
    (hw : w.Inv F0 m0) (e : Event) : ∃ w', (w.step e).1 = some w' ∧ w'.Inv F0 m0 := by
  obtain ⟨s, hh, hs⟩ := hw
  cases e with
  | poll =>
    obtain ⟨r, this', s', hpf, hst, hs'⟩ := poll_frame_of_acquire (acquire_state_of_holds hh) hs
    refine ⟨⟨this', none⟩, ?_, s', .inl ⟨hst, rfl⟩, hs'⟩
    simp only [World.step, hpf]
  | retry =>
    -- the dropped body puts the state it holds back in the shared slot
    refine ⟨⟨ReplayBody.clone, w.active.drop w.shared⟩, rfl, s, .inr ⟨rfl, ?_⟩, hs⟩
    rcases hh with ⟨ha, -⟩ | ⟨ha, hsh⟩
    · simp only [ReplayBody.drop, ha]
    · simp only [ReplayBody.drop, ha, hsh]

theorem World.init_inv (ds : List (List β)) (t : Option T) (max_bytes : Nat) :
    (World.init (Inner.ofBody ds t) max_bytes).Inv (Inner.ofBody ds t).frames
      ((max_bytes + 1) % USIZE_MOD) :=
  ⟨_, .inl ⟨rfl, rfl⟩, [], rfl, rfl, fun _ => rfl, fun _ => rfl, rfl, rfl⟩

/-- **Capped.**  Once the state is capped, the first poll after a retry fails with `Capped`:
    the record is empty, so there is nothing to replay. -/
theorem first_poll_capped {F0 : List (Frame (List β) T)} {m0 : Nat} {w : World β T}
    {s : BodyState β T} (hh : w.Holds s) (hs : StateInv F0 m0 s) (hcap : s.isCapped = true) :
    (machine.run (some w) [.retry, .poll]).2 = [some (.error ⟨⟩)] := by
  obtain ⟨consumed, -, hrec⟩ := hs
  have hzero : s.max_bytes = 0 := by simpa [BodyState.isCapped] using hcap
  have hempty : remaining s.replay = 0 := hrec.replay_empty hzero
  have hdrop : w.active.drop w.shared = some s := by
    rcases hh with ⟨ha, -⟩ | ⟨ha, hsh⟩
    · simp only [ReplayBody.drop, ha]
    · simp only [ReplayBody.drop, ha, hsh]
  simp only [Machine.run_cons, Machine.run_nil]
  show [] ++ ((World.step ⟨ReplayBody.clone, w.active.drop w.shared⟩ .poll).2 ++ []) = _
  rw [hdrop]
  simp [World.step, ReplayBody.pollFrame, ReplayBody.clone, acquireState, hempty, hcap]

/-- **A clone polled first replays its own first chunk.**  When the initial body is dropped
    before it read anything, the clone that is polled next finds an empty record: it reads the
    first chunk from the inner body and records it, and since `replay_body` is only cleared by a
    replay, its next poll replays the record: the first chunk comes out twice. -/
theorem replay_duplicates_first_chunk (d : List β) (hd : d ≠ []) (ds : List (List β))
    (t : Option T) (max_bytes : Nat) (hlen : d.length ≤ max_bytes)
    (hmax : max_bytes + 1 < USIZE_MOD) :
    (machine.run (some (World.init (Inner.ofBody (d :: ds) t) max_bytes))
        [.retry, .poll, .poll]).2 =
      [some (.ok (.data (.initial d))), some (.ok (.data (.replay [d])))] := by
  have hroom : (max_bytes + 1) % USIZE_MOD = max_bytes + 1 := Nat.mod_eq_of_lt hmax
  have hpos : 0 < d.length := List.length_pos_of_ne_nil hd
  have hleft : max_bytes + 1 - d.length ≠ 0 := by omega
  simp [machine, World.step, World.init, ReplayBody.clone, ReplayBody.drop,
    ReplayBody.pollFrame, acquireState, BodyState.pollInner, Inner.pollFrame, Inner.ofBody,
    record_bytes_eq, BodyState.isCapped, remaining, hroom, hleft, hpos]

theorem replay_duplicates_first_chunk_one_byte :
    (machine.run (some (World.init (Inner.ofBody [[(1 : UInt8)]] (none : Option Unit)) 10))
        [.retry, .poll, .poll]).2 =
      [some (.ok (.data (.initial [1]))), some (.ok (.data (.replay [[1]])))] :=
  replay_duplicates_first_chunk [1] (by decide) [] none 10 (by decide) (by decide)

/-! ### Reading straight through -/

/-- A body with nothing to replay polls the inner body. -/
theorem poll_frame_direct (s : BodyState β T) :
    (⟨some s, false, false⟩ : ReplayBody β T).pollFrame none =
      s.pollInner.map fun r => (r.1, ⟨some r.2, false, false⟩, none) := by
  simp only [ReplayBody.pollFrame, acquireState, Bool.false_and, Bool.false_eq_true, if_false,
    Option.bind_eq_bind, Option.bind_some]
  cases s.pollInner <;> rfl

/-- The frames a body that reads straight through yields for the inner frames `fs`. -/
def directOutputs (fs : List (Frame (List β) T)) : List (Polled β T) :=
  fs.map (fun | .data d => some (.ok (.data (.initial d))) | .trailers t => some (.ok (.trailers t)))
    ++ [none]

/-- **Reading straight through.**  A body that holds the state with nothing to replay yields
    the inner body's remaining chunks, then its trailers if any, then the end of the stream,
    whatever the limit: the body that crosses it is not stopped. -/
theorem run_direct (ds : List (List β)) (t : Option T) (s : BodyState β T)
    (hc : s.is_completed = false) (he : s.rest.ended = false)
    (hfs : s.rest.frames = ds.map .data ++ t.toList.map .trailers) :
    (machine.run (some ⟨⟨some s, false, false⟩, none⟩)
        (List.replicate (ds.length + t.toList.length + 1) .poll)).2 =
      directOutputs (ds.map .data ++ t.toList.map .trailers) := by
  induction ds generalizing s with
  | nil =>
    cases t with
    | none =>
      -- the inner body ends
      obtain ⟨-, heq⟩ | ⟨d, fs, hfr, -⟩ | ⟨t, fs, hfr, -⟩ := poll_inner_cases s hc he
      · simp [machine, World.step, poll_frame_direct, heq, directOutputs]
      · simp [hfs] at hfr
      · simp [hfs] at hfr
    | some t =>
      -- the trailers, then the end: the completed body is not polled again
      obtain ⟨hnil, -⟩ | ⟨d, fs, hfr, -⟩ | ⟨t', fs, hfr, heq⟩ := poll_inner_cases s hc he
      · simp [hfs] at hnil
      · simp [hfs] at hfr
      · simp only [hfs, List.map_nil, Option.toList_some, List.map_cons, List.nil_append,
          List.cons.injEq, Frame.trailers.injEq] at hfr
        obtain ⟨rfl, rfl⟩ := hfr
        simp [machine, World.step, poll_frame_direct, heq, poll_inner_of_completed, directOutputs]
  | cons d ds ih =>
    obtain ⟨hnil, -⟩ | ⟨d', fs, hfr, heq⟩ | ⟨t', fs, hfr, -⟩ := poll_inner_cases s hc he
    · simp [hfs] at hnil
    · -- the first chunk, then the rest from the recorded state
      simp only [hfs, List.map_cons, List.cons_append, List.cons.injEq, Frame.data.injEq] at hfr
      obtain ⟨rfl, rfl⟩ := hfr
      -- the state after the first chunk, reading the rest of the frames
      let s₁ := ({ s with rest := ⟨ds.map Frame.data ++ t.toList.map Frame.trailers, false⟩ }.recordBytes d).2
      have hrest := ih s₁ (by simp [s₁, record_bytes_eq, hc]) (by simp [s₁, record_bytes_eq])
        (by simp [s₁, record_bytes_eq])
      rw [show (d :: ds).length + t.toList.length + 1 = (ds.length + t.toList.length + 1) + 1
        by simp; omega, List.replicate_succ, Machine.run_cons]
      rw [show (machine.step (some ⟨⟨some s, false, false⟩, none⟩) Event.poll) =
          (some ⟨⟨some s₁, false, false⟩, none⟩, [some (.ok (.data (.initial d)))]) by
        simp [machine, World.step, poll_frame_direct, heq, s₁]]
      rw [hrest]
      simp [directOutputs]
    · simp [hfs] at hfr

end LinkerdProxy.Retry
