import LinkerdProxy.Retry.Replay
import LinkerdProxy.Lib.Loop

namespace LinkerdProxy.Retry

/-!
# The replay buffer as a `bytes::Buf` (`http::retry::replay::buffer`)

A replaying body hands out the whole record as one `Replay`, the recorded chunks front first.
Its `Buf` methods walk the chunks: `chunk` shows the front one, `advance` consumes and pops
fronts, and `copy_to_bytes` serves a request from the front chunk when it fits and otherwise
copies through `Take` into a fresh `BytesMut`, whose `put` loops on `chunk` and `advance`.

The specification is a `Buf` over the flat byte string: `flat_step`.

* `advance_spec` — `advance` consumes exactly the bytes asked for, whatever the chunks;
* `copy_to_bytes_spec` — on a replay without empty chunks, `copy_to_bytes` returns the next bytes
  and terminates;
* `run_refines_flat` — on a replay without empty chunks, every run of `advance` and
  `copy_to_bytes` is a run of the flat buffer, and `chunk` stays a non-empty prefix of what is
  left while anything is;
* `copy_to_bytes_stuck` — behind an empty front chunk, `chunk` is empty while bytes remain and
  `copy_to_bytes` never returns: `put` copies the empty chunk and advances by nothing, for ever;
* `replay_empty_chunk_stalls` — a body whose first data frame is empty leaves its record so.
-/

variable {β : Type}

/-! ### The model -/

namespace Replay

/-- `Replay::chunk`: the front buffer, or nothing. -/
def chunk (bufs : List (List β)) : List β := bufs.headD []

/-- `Replay::advance`: advance the front buffer when it is longer than what is left, else pop it
    and go on; `none` is the panic of `self.bufs[0]` on an empty deque. -/
def advance (bufs : List (List β)) (amt : Nat) : Option (List (List β)) :=
  if amt = 0 then some bufs
  else
    match bufs with
    | [] => none
    | first :: rest =>
      let rem := first.length
      if rem > amt then some (first.drop amt :: rest)
      else advance rest (amt - rem)

end Replay

/-- `bytes::buf::Take<&mut Replay>`: the replay, and how many bytes it may still yield. -/
structure Take (β : Type) where
  inner : List (List β)
  limit : Nat
  deriving DecidableEq, Repr

namespace Take

/-- `Take::remaining`. -/
def remaining (t : Take β) : Nat := min (Retry.remaining t.inner) t.limit

/-- `Take::chunk`: the inner chunk, cut at the limit. -/
def chunk (t : Take β) : List β := (Replay.chunk t.inner).take t.limit

/-- `Take::advance`; `none` is the panic of `assert!(cnt <= self.limit)`, or of the inner advance. -/
def advance (t : Take β) (cnt : Nat) : Option (Take β) :=
  if cnt ≤ t.limit then (Replay.advance t.inner cnt).map fun inner => ⟨inner, t.limit - cnt⟩
  else none

end Take

/-- One pass of `BytesMut::put`'s copy loop: append the source's chunk, advance the source past
    it. -/
def putStep (st : List β × Take β) : Option (List β × Take β) :=
  let s := st.2.chunk
  (st.2.advance s.length).map fun src => (st.1 ++ s, src)

/-- `BytesMut::put` into a buffer of non-zero capacity: `while src.has_remaining()` copy a chunk,
    for at most `fuel` passes. -/
def put (fuel : Nat) (buf : List β) (src : Take β) : Option (List β × Take β) :=
  whileLoop (fun st => st.2.remaining > 0) putStep fuel (buf, src)

namespace Replay

/-- The slow path of `Replay::copy_to_bytes`: `self.take(len)` put into a fresh `BytesMut`;
    `none` is the panic of `assert!(len <= self.remaining())`, or `put` running out of fuel. -/
def copySlow (fuel : Nat) (bufs : List (List β)) (len : Nat) :
    Option (List β × List (List β)) :=
  if len ≤ Retry.remaining bufs then (put fuel [] ⟨bufs, len⟩).map fun r => (r.1, r.2.inner)
  else none

/-- `Replay::copy_to_bytes`: from the front buffer when it holds `len` bytes, popping it once it
    is used up, else the slow path. -/
def copyToBytes (fuel : Nat) (bufs : List (List β)) (len : Nat) :
    Option (List β × List (List β)) :=
  match bufs with
  | first :: rest =>
    if len ≤ first.length then
      let buf := first.take len
      let first := first.drop len
      some (buf, if first.length = 0 then rest else first :: rest)
    else copySlow fuel bufs len
  | [] => copySlow fuel bufs len

end Replay

/-! ### Chunks and what remains -/

theorem remaining_eq_length_flatten (bufs : List (List β)) :
    remaining bufs = bufs.flatten.length := by
  simp [remaining, List.length_flatten]

@[simp] theorem remaining_cons (b : List β) (bufs : List (List β)) :
    remaining (b :: bufs) = b.length + remaining bufs := by
  simp [remaining]

@[simp] theorem remaining_nil : remaining ([] : List (List β)) = 0 := rfl

namespace Replay

@[simp] theorem chunk_nil : chunk ([] : List (List β)) = [] := rfl

@[simp] theorem chunk_cons (b : List β) (bufs : List (List β)) : chunk (b :: bufs) = b := rfl

/-- The chunk is a prefix of what is left. -/
theorem chunk_prefix (bufs : List (List β)) : chunk bufs <+: bufs.flatten := by
  cases bufs with
  | nil => exact List.nil_prefix
  | cons b bufs => exact List.prefix_append b bufs.flatten

/-- Without empty chunks, the chunk is empty only when nothing is left. -/
theorem chunk_eq_nil_iff {bufs : List (List β)} (hne : [] ∉ bufs) :
    chunk bufs = [] ↔ remaining bufs = 0 := by
  cases bufs with
  | nil => simp
  | cons b bufs =>
    have hb : b ≠ [] := fun h => hne (h ▸ List.mem_cons_self)
    simp [hb]

/-! ### `advance` -/

@[simp] theorem advance_zero (bufs : List (List β)) : advance bufs 0 = some bufs := by
  unfold advance
  rw [if_pos rfl]

theorem advance_cons {amt : Nat} (h : amt ≠ 0) (first : List β) (rest : List (List β)) :
    advance (first :: rest) amt =
      if first.length > amt then some (first.drop amt :: rest)
      else advance rest (amt - first.length) := by
  rw [advance, if_neg h]

/-- **`advance` consumes what it is asked.**  Advancing by at most what remains leaves the rest
    of the bytes, with no empty chunk unless one was there. -/
theorem advance_spec : ∀ (bufs : List (List β)) (amt : Nat), amt ≤ remaining bufs →
    ∃ bufs', advance bufs amt = some bufs' ∧ bufs'.flatten = bufs.flatten.drop amt ∧
      ([] ∉ bufs → [] ∉ bufs')
  | [], amt, h => ⟨[], by simp_all, by simp_all, id⟩
  | first :: rest, amt, h => by
    by_cases h0 : amt = 0
    · subst h0
      exact ⟨first :: rest, advance_zero _, by simp, id⟩
    rw [advance_cons h0]
    by_cases hlt : first.length > amt
    · -- the front buffer outlasts the advance
      rw [if_pos hlt]
      refine ⟨first.drop amt :: rest, rfl, ?_, ?_⟩
      · simp [List.drop_append_of_le_length hlt.le]
      · intro hne hmem
        rcases List.mem_cons.mp hmem with hd | hr
        · have := congrArg List.length hd
          simp at this
          omega
        · exact hne (List.mem_cons_of_mem first hr)
    · -- the front buffer is used up: pop it and advance the rest
      rw [if_neg hlt]
      have hrest : amt - first.length ≤ remaining rest := by
        simp at h
        omega
      obtain ⟨bufs', hadv, hflat, hne'⟩ := advance_spec rest (amt - first.length) hrest
      refine ⟨bufs', hadv, ?_, fun hne => hne' fun hr => hne (List.mem_cons_of_mem first hr)⟩
      have hsplit : amt = first.length + (amt - first.length) := by omega
      rw [hflat, List.flatten_cons, hsplit, List.drop_append]
      simp

end Replay

/-! ### The copy loop -/

/-- What the copy loop keeps: after copying `k` of the `len` bytes of `F` it was given, the
    buffer holds them after what it started with, the source reads the rest of `F` with the limit
    the bytes still to copy, and has no empty chunk. -/
structure PutInv (buf F : List β) (len : Nat) (st : List β × Take β) : Prop where
  copied : ∃ k, st.1 = buf ++ F.take k ∧ st.2.inner.flatten = F.drop k ∧ st.2.limit + k = len
  within : st.2.limit ≤ remaining st.2.inner
  no_empty : [] ∉ st.2.inner

/-- One pass copies the next non-empty chunk and lowers the limit by its length. -/
theorem put_step_spec {buf F : List β} {len : Nat} {st : List β × Take β}
    (hi : PutInv buf F len st) (hc : st.2.remaining > 0) :
    ∃ st', putStep st = some st' ∧ PutInv buf F len st' ∧ st'.2.limit < st.2.limit := by
  obtain ⟨acc, ⟨inner, limit⟩⟩ := st
  obtain ⟨⟨k, hacc, hflat, hk⟩, hwithin, hne⟩ := hi
  dsimp only at hacc hflat hk hwithin hne hc
  cases inner with
  | nil => simp [Take.remaining] at hc
  | cons first rest =>
    have hfirst : first ≠ [] := fun h => hne (h ▸ List.mem_cons_self)
    have hpos : 0 < limit := by
      simp only [Take.remaining] at hc
      omega
    -- the pass copies the front chunk, cut at the limit
    let c := first.take limit
    have hclen : c.length = min limit first.length := List.length_take
    have hcpos : 0 < c.length := by
      have : 0 < first.length := List.length_pos_of_ne_nil hfirst
      omega
    have hcrem : c.length ≤ remaining (first :: rest) := by
      simp only [remaining_cons]
      omega
    obtain ⟨inner', hadv, hflat', hne'⟩ := Replay.advance_spec (first :: rest) c.length hcrem
    have hc_eq : c = (F.drop k).take c.length := by
      rw [← hflat]
      exact (List.prefix_iff_eq_take.mp ((List.take_prefix limit first).trans
        (Replay.chunk_prefix (first :: rest))))
    refine ⟨(acc ++ c, ⟨inner', limit - c.length⟩), ?_, ⟨⟨k + c.length, ?_, ?_, ?_⟩, ?_, hne' hne⟩,
      by dsimp only; omega⟩
    · have hle : c.length ≤ limit := by omega
      show (Take.advance ⟨first :: rest, limit⟩ c.length).map (fun src => (acc ++ c, src)) = _
      rw [Take.advance, if_pos hle, hadv]
      rfl
    · dsimp only
      rw [hacc, List.append_assoc, List.take_add, ← hc_eq]
    · dsimp only
      rw [hflat', hflat, List.drop_drop]
    · dsimp only
      omega
    · dsimp only
      rw [remaining_eq_length_flatten, hflat', List.length_drop, ← remaining_eq_length_flatten]
      omega

/-- **The copy loop.**  Given a source without empty chunks and a limit within what remains,
    `put` appends the limit's worth of bytes and leaves the source at the rest, within one pass
    per byte. -/
theorem put_spec (buf : List β) (bufs : List (List β)) (len : Nat) (hne : [] ∉ bufs)
    (hlen : len ≤ remaining bufs) (fuel : Nat) (hfuel : len < fuel) :
    ∃ bufs', put fuel buf ⟨bufs, len⟩ = some (buf ++ bufs.flatten.take len, ⟨bufs', 0⟩) ∧
      bufs'.flatten = bufs.flatten.drop len ∧ [] ∉ bufs' := by
  have h0 : PutInv buf bufs.flatten len (buf, ⟨bufs, len⟩) :=
    ⟨⟨0, by simp, by simp, by simp⟩, hlen, hne⟩
  obtain ⟨⟨acc, ⟨inner, limit⟩⟩, hrun, ⟨⟨k, hacc, hflat, hk⟩, hwithin, hne'⟩, hdone⟩ :=
    whileLoop_variant (fun st => st.2.remaining > 0) putStep (PutInv buf bufs.flatten len)
      (fun st => st.2.limit) (fun st hi hc => put_step_spec hi (of_decide_eq_true hc))
      fuel _ h0 hfuel
  dsimp only at hacc hflat hk hwithin hne' hdone
  -- the loop stops when the limit is spent
  have hlimit : limit = 0 := by
    simp [Take.remaining] at hdone
    omega
  subst hlimit
  have hk' : k = len := by omega
  subst hk'
  exact ⟨inner, by rw [put, hrun, hacc], hflat, hne'⟩

/-! ### `copy_to_bytes` -/

namespace Replay

/-- **`copy_to_bytes` returns the next bytes.**  On a replay without empty chunks, copying at most
    what remains returns the next `len` bytes and leaves the rest, and the slow path needs no more
    than `len` passes of its loop. -/
theorem copy_to_bytes_spec (bufs : List (List β)) (len : Nat) (hne : [] ∉ bufs)
    (hlen : len ≤ remaining bufs) (fuel : Nat) (hfuel : len < fuel) :
    ∃ bufs', copyToBytes fuel bufs len = some (bufs.flatten.take len, bufs') ∧
      bufs'.flatten = bufs.flatten.drop len ∧ [] ∉ bufs' := by
  have hslow : ∃ bufs', copySlow fuel bufs len = some (bufs.flatten.take len, bufs') ∧
      bufs'.flatten = bufs.flatten.drop len ∧ [] ∉ bufs' := by
    obtain ⟨bufs', hput, hflat, hne'⟩ := put_spec [] bufs len hne hlen fuel hfuel
    exact ⟨bufs', by simp [copySlow, hlen, hput], hflat, hne'⟩
  cases bufs with
  | nil => exact hslow
  | cons first rest =>
    by_cases hfit : len ≤ first.length
    · -- the fast path: a slice of the front buffer
      have hne_rest : [] ∉ rest := fun h => hne (List.mem_cons_of_mem first h)
      by_cases hused : len = first.length
      · -- the front buffer is used up and popped
        refine ⟨rest, by simp [copyToBytes, hused], ?_, hne_rest⟩
        simp [hused]
      · have hleft : first.length - len ≠ 0 := by omega
        refine ⟨first.drop len :: rest, by simp [copyToBytes, hfit, hleft], ?_, ?_⟩
        · simp [List.drop_append_of_le_length hfit]
        · intro hmem
          rcases List.mem_cons.mp hmem with hd | hr
          · have := congrArg List.length hd
            simp at this
            omega
          · exact hne_rest hr
    · simp only [copyToBytes, if_neg hfit]
      exact hslow

/-- **An empty front chunk stalls `copy_to_bytes`.**  Asked for bytes that the chunks behind an
    empty front one hold, `copy_to_bytes` takes the slow path, whose loop copies the empty chunk
    and advances the source by nothing: it never returns. -/
theorem copy_to_bytes_stuck (rest : List (List β)) {len : Nat} (hpos : 0 < len)
    (hlen : len ≤ remaining rest) (fuel : Nat) :
    copyToBytes fuel ([] :: rest) len = none := by
  -- the loop's state after any number of passes is its first one
  have hloop : put fuel [] ⟨[] :: rest, len⟩ = none := by
    apply whileLoop_stuck
    · simp [Take.remaining]
      omega
    · simp [putStep, Take.chunk, Take.advance]
  simp [copyToBytes, Nat.not_le.mpr hpos, copySlow, hloop]

end Replay

/-! ### Runs against the flat buffer -/

/-- A call on a `Buf`: `advance(amt)` or `copy_to_bytes(len)`. -/
inductive BufOp where
  | advance (amt : Nat)
  | copyToBytes (len : Nat)
  deriving DecidableEq, Repr

/-- The specification: a `Buf` over a flat byte string; a call beyond what remains panics
    (`none`), and `copy_to_bytes` emits the bytes it returns. -/
def flatStep : Option (List β) → BufOp → Option (List β) × List (List β)
  | some s, .advance amt => if amt ≤ s.length then (some (s.drop amt), []) else (none, [])
  | some s, .copyToBytes len =>
    if len ≤ s.length then (some (s.drop len), [s.take len]) else (none, [])
  | none, _ => (none, [])

/-- The flat buffer as a machine. -/
def flatMachine : Machine (Option (List β)) BufOp (List β) := ⟨flatStep⟩

/-- The replay's calls, each `copy_to_bytes` with one pass of the copy loop per byte. -/
def replayStep : Option (List (List β)) → BufOp → Option (List (List β)) × List (List β)
  | some bufs, .advance amt => (Replay.advance bufs amt, [])
  | some bufs, .copyToBytes len =>
    match Replay.copyToBytes (len + 1) bufs len with
    | some (out, bufs) => (some bufs, [out])
    | none => (none, [])
  | none, _ => (none, [])

/-- The replay as a machine. -/
def replayMachine : Machine (Option (List (List β))) BufOp (List β) := ⟨replayStep⟩

/-- A replay that reads as a flat string: its chunks' concatenation, none of them empty. -/
def Reads : Option (List (List β)) → Option (List β) → Prop
  | some bufs, some s => [] ∉ bufs ∧ bufs.flatten = s
  | none, none => True
  | _, _ => False

/-- Advancing by more than remains panics. -/
theorem advance_eq_none : ∀ (bufs : List (List β)) (amt : Nat), remaining bufs < amt →
    Replay.advance bufs amt = none
  | [], amt, h => by simp [Replay.advance, show amt ≠ 0 by simp at h; omega]
  | first :: rest, amt, h => by
    have hrest : remaining rest < amt - first.length := by simp at h; omega
    rw [Replay.advance_cons (by omega), if_neg (by simp at h; omega)]
    exact advance_eq_none rest (amt - first.length) hrest

/-- Copying more than remains panics. -/
theorem copy_to_bytes_eq_none (fuel : Nat) (bufs : List (List β)) {len : Nat}
    (h : remaining bufs < len) : Replay.copyToBytes fuel bufs len = none := by
  have hslow : Replay.copySlow fuel bufs len = none := by
    simp [Replay.copySlow, Nat.not_le.mpr h]
  cases bufs with
  | nil => exact hslow
  | cons first rest =>
    have hfit : ¬ len ≤ first.length := by simp at h; omega
    simp only [Replay.copyToBytes, if_neg hfit]
    exact hslow

/-- One call of the replay is one call of the flat buffer. -/
theorem replay_step_reads {r : Option (List (List β))} {s : Option (List β)} (hr : Reads r s)
    (op : BufOp) :
    Reads (replayStep r op).1 (flatStep s op).1 ∧ (replayStep r op).2 = (flatStep s op).2 := by
  match r, s, hr with
  | none, none, _ => exact ⟨trivial, rfl⟩
  | some bufs, some s, ⟨hne, hflat⟩ =>
    subst hflat
    have hlen : remaining bufs = bufs.flatten.length := remaining_eq_length_flatten bufs
    cases op with
    | advance amt =>
      by_cases h : amt ≤ bufs.flatten.length
      · obtain ⟨bufs', hadv, hflat', hne'⟩ := Replay.advance_spec bufs amt (by omega)
        simp only [replayStep, flatStep, hadv, if_pos h]
        exact ⟨⟨hne' hne, hflat'⟩, trivial⟩
      · simp only [replayStep, flatStep, advance_eq_none bufs amt (by omega), if_neg h]
        exact ⟨trivial, trivial⟩
    | copyToBytes len =>
      by_cases h : len ≤ bufs.flatten.length
      · obtain ⟨bufs', hcopy, hflat', hne'⟩ :=
          Replay.copy_to_bytes_spec bufs len hne (by omega) (len + 1) (by omega)
        simp only [replayStep, flatStep, hcopy, if_pos h]
        exact ⟨⟨hne', hflat'⟩, trivial⟩
      · simp only [replayStep, flatStep, copy_to_bytes_eq_none (len + 1) bufs
          (show remaining bufs < len by omega), if_neg h]
        exact ⟨trivial, trivial⟩

/-- **`Replay` is a `Buf` over its concatenation.**  From a replay without empty chunks, every
    sequence of `advance` and `copy_to_bytes` calls returns what the flat buffer returns, panics
    where it panics, and ends at a replay without empty chunks reading as the flat buffer's rest;
    there `remaining` is the rest's length and `chunk` a prefix of it, empty only at the end. -/
theorem run_refines_flat (bufs : List (List β)) (hne : [] ∉ bufs) (ops : List BufOp) :
    (replayMachine.run (some bufs) ops).2 = (flatMachine.run (some bufs.flatten) ops).2 ∧
      ∀ bufs', (replayMachine.run (some bufs) ops).1 = some bufs' →
        ∃ s, (flatMachine.run (some bufs.flatten) ops).1 = some s ∧
          remaining bufs' = s.length ∧ Replay.chunk bufs' <+: s ∧
          (Replay.chunk bufs' = [] ↔ s = []) := by
  obtain ⟨hreads, hout⟩ := Machine.run_simulation replayMachine flatMachine (fun _ => True) Reads
    (fun r s op _ hr => replay_step_reads hr op) ops (some bufs) (some bufs.flatten)
    (fun _ _ => trivial) ⟨hne, rfl⟩
  refine ⟨hout, fun bufs' hrun => ?_⟩
  rw [hrun] at hreads
  cases hflat : (flatMachine.run (some bufs.flatten) ops).1 with
  | none => rw [hflat] at hreads; exact hreads.elim
  | some s =>
    rw [hflat] at hreads
    obtain ⟨hne', rfl⟩ := hreads
    refine ⟨bufs'.flatten, rfl, remaining_eq_length_flatten bufs', Replay.chunk_prefix bufs', ?_⟩
    rw [Replay.chunk_eq_nil_iff hne', remaining_eq_length_flatten, List.length_eq_zero_iff]

/-- Two chunks, read across their boundary. -/
theorem run_refines_flat_across_chunks :
    (replayMachine.run (some [[1, 2], [3]]) [.advance 1, .copyToBytes 2]).2 =
      (flatMachine.run (some [(1 : Nat), 2, 3]) [.advance 1, .copyToBytes 2]).2 :=
  (run_refines_flat [[1, 2], [3]] (by decide) [.advance 1, .copyToBytes 2]).1

/-! ### A recorded empty chunk -/

/-- **An empty data frame stalls the replay.**  An inner body whose first data frame is empty
    and whose second holds one byte is recorded as the chunks `[], [1]`, which a retry replays;
    there `chunk()` is empty while one byte remains, and `copy_to_bytes(1)` never returns. -/
theorem replay_empty_chunk_stalls :
    (machine.run (some (World.init (Inner.ofBody [[], [(1 : UInt8)]] (none : Option Unit)) 10))
        [.poll, .poll, .retry, .poll]).2 =
      [some (.ok (.data (.initial []))), some (.ok (.data (.initial [1]))),
        some (.ok (.data (.replay [[], [1]])))] ∧
    Replay.chunk [[], [(1 : UInt8)]] = [] ∧ remaining [[], [(1 : UInt8)]] = 1 ∧
    ∀ fuel, Replay.copyToBytes fuel [[], [(1 : UInt8)]] 1 = none := by
  refine ⟨by rfl, rfl, rfl, fun fuel => ?_⟩
  exact Replay.copy_to_bytes_stuck [[1]] (by decide) (by decide) fuel

end LinkerdProxy.Retry
