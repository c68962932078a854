import LinkerdProxy.Lib.Machine
import Mathlib

namespace LinkerdProxy.DuplexIo

/-!
# Bidirectional copying (`linkerd_duplex`)

`Duplex` copies the bytes one peer sends to the other, in both directions.  Each `HalfDuplex`
reads its peer into a `CopyBuf` and writes what it buffered to the other peer; `Duplex::poll`
drives both copies on every poll, ignoring their readiness.  A write may only put bytes into the
destination's own buffer (as a TLS stream does), which reaches the wire on a later flush or
shutdown; `copy_into` keeps a `needs_flush` obligation so that written bytes are flushed before
it returns pending, and a `flushing` flag to resume a flush on the next poll.

A peer is modelled by its read side (the chunks its reads will return, whether EOF follows, and
every byte it sent) and its write side (every byte its writes accepted, how many reached the
wire, the room of its buffer, whether a flush completes now, whether it was shut down).  The two
directions of a `Duplex` touch disjoint parts of the state: the source half's buffer and
`flushing`, the source's read side, the destination's write side and the destination half's
`is_shutdown`; one direction is a `Direction`.  The environment sends bytes, closes, and sets the
writers' room and flush readiness between polls.

* `Direction.Inv` — what the writer accepted, what is buffered and what is unread always make up
  what the peer sent, the writer's part first; every step of the copy keeps it;
* `duplex_law` — over every run: the bytes each writer accepted are a prefix of what its source
  sent, a destination is shut down only after it accepted everything its source sent before EOF,
  and `Duplex` resolves `Ok` only once both destinations are shut down;
* `flush_dropped` — after a write that was pending, then completed after a flush, `copy_into`
  forgets the flush it owes: while the source stays pending the bytes never reach the wire,
  however often the `Duplex` is polled and however ready the destination is to flush.
-/

/-- The size of a `CopyBuf`: `CopyBuf::new` allocates `8 * 1024` bytes. -/
def bufSize : Nat := 8 * 1024

/-- The read side of a peer: every byte the peer sent, the chunks its reads will return (a read
    returns the next chunk, cut at the buffer's size), and whether EOF follows them. -/
structure Reader where
  sent : List UInt8
  chunks : List (List UInt8)
  eof : Bool
  deriving DecidableEq, Repr

/-- The write side of a peer: every byte its `poll_write` accepted, in order; how many of them
    reached the wire; the size of its buffer; whether a flush completes when polled; whether a
    `poll_shutdown` completed. -/
structure Writer where
  accepted : List UInt8
  flushed : Nat
  capacity : Nat
  flush_ready : Bool
  shutdown : Bool
  deriving DecidableEq, Repr

/-- A peer: its read side and its write side. -/
structure Peer where
  reader : Reader
  writer : Writer
  deriving DecidableEq, Repr

/-- A peer just connected: nothing sent or written, a buffer of `capacity` bytes. -/
def Peer.connected (capacity : Nat) (flush_ready : Bool) : Peer :=
  ⟨⟨[], [], false⟩, ⟨[], 0, capacity, flush_ready, false⟩⟩

namespace Reader

/-- `poll_read_buf` into an emptied `CopyBuf`: the next chunk, cut at the buffer's size (the rest
    stays for the next read); zero bytes at EOF; pending otherwise. -/
def pollRead (r : Reader) : Reader × Option (List UInt8) :=
  match r.chunks with
  | c :: rest =>
    ({ r with chunks := if c.length ≤ bufSize then rest else c.drop bufSize :: rest },
      some (c.take bufSize))
  | [] => if r.eof then (r, some []) else (r, none)

/-- The peer sends `bytes`: nothing once it sent EOF, and sending no bytes sends nothing. -/
def send (r : Reader) (bytes : List UInt8) : Reader :=
  if r.eof || bytes.isEmpty then r
  else { r with sent := r.sent ++ bytes, chunks := r.chunks ++ [bytes] }

/-- The peer sends EOF. -/
def close (r : Reader) : Reader := { r with eof := true }

end Reader

namespace Writer

/-- Room left in the writer's buffer: its size less the bytes accepted and not yet flushed. -/
def room (w : Writer) : Nat := w.capacity - (w.accepted.length - w.flushed)

/-- `poll_write` of `bytes`: pending with a full buffer; otherwise as many bytes as fit. -/
def pollWrite (w : Writer) (bytes : List UInt8) : Writer × Option Nat :=
  if w.room = 0 then (w, none)
  else
    let n := min w.room bytes.length
    ({ w with accepted := w.accepted ++ bytes.take n }, some n)

/-- `poll_flush`: every accepted byte reaches the wire, if the peer lets it now. -/
def pollFlush (w : Writer) : Writer × Bool :=
  if w.flush_ready then ({ w with flushed := w.accepted.length }, true) else (w, false)

/-- `poll_shutdown`: flushes, then shuts the write side down, if the peer lets it now. -/
def pollShutdown (w : Writer) : Writer × Bool :=
  if w.flush_ready then ({ w with flushed := w.accepted.length, shutdown := true }, true)
  else (w, false)

end Writer

/-- `Buffered`: bytes were already buffered, some were read, or the source met EOF. -/
inductive Buffered where
  | not_empty
  | read (n : Nat)
  | eof
  deriving DecidableEq, Repr

/-- `Drained`: nothing was buffered, some bytes were written before the writer was pending
    (`Drained::Partial`), or all of them were. -/
inductive Drained where
  | buffer_empty
  | partly (n : Nat)
  | all (n : Nat)
  deriving DecidableEq, Repr

/-- The I/O error a copy can raise: a write that accepted zero bytes. -/
inductive IoError where
  | write_zero
  deriving DecidableEq, Repr

/-- `io::Poll<()>`: ready with `Ok(())`, pending, or ready with an error. -/
inductive Poll where
  | ready
  | pending
  | failed (e : IoError)
  deriving DecidableEq, Repr

/-- One direction of the copy: the source half's `CopyBuf` (the bytes read and not yet written;
    none once the source met EOF) and its `flushing`, the source's read side, the destination's
    write side, and the destination half's `is_shutdown`. -/
structure Direction where
  buf : Option (List UInt8)
  flushing : Bool
  reader : Reader
  writer : Writer
  is_shutdown : Bool
  deriving DecidableEq, Repr

/-- The loop of `drain_into`: writes while bytes are buffered, counting in `sz` the bytes
    written; returns the writer, the bytes left, and the outcome. -/
def drainLoop (w : Writer) (b : List UInt8) (sz : Nat) :
    Writer × List UInt8 × Except IoError Drained :=
  match b with
  | [] => (w, [], .ok (if sz = 0 then .buffer_empty else .all sz))
  | x :: xs =>
    match w.pollWrite (x :: xs) with
    | (w', none) => (w', x :: xs, .ok (.partly sz))
    | (w', some n) =>
      if n = 0 then (w', x :: xs, .error .write_zero)
      else drainLoop w' ((x :: xs).drop n) (sz + n)
termination_by b.length
decreasing_by simp only [List.length_drop, List.length_cons]; omega

namespace Direction

/-- The bytes in the source half's `CopyBuf`. -/
def buffered (d : Direction) : List UInt8 := d.buf.getD []

/-- `HalfDuplex::poll_buffer`: with bytes buffered nothing is read; otherwise the buffer is reset
    and read into, and a read of zero bytes is EOF, after which the buffer is gone. -/
def pollBuffer (d : Direction) : Direction × Option Buffered :=
  match d.buf with
  | none => (d, some .eof)
  | some b =>
    if b ≠ [] then (d, some .not_empty)
    else
      match d.reader.pollRead with
      | (_, none) => (d, none)
      | (r, some bytes) =>
        if 0 < bytes.length then
          ({ d with reader := r, buf := some bytes }, some (.read bytes.length))
        else ({ d with reader := r, buf := none }, some .eof)

/-- `HalfDuplex::poll_flush`: `flushing` is set exactly when the flush did not complete. -/
def pollFlush (d : Direction) : Direction × Bool :=
  ({ d with writer := d.writer.pollFlush.1, flushing := !d.writer.pollFlush.2 },
    d.writer.pollFlush.2)

/-- `HalfDuplex::drain_into`: writes as much buffered data as possible. -/
def drainInto (d : Direction) : Direction × Except IoError Drained :=
  match d.buf with
  | none => (d, .ok .buffer_empty)
  | some b =>
    let r := drainLoop d.writer b 0
    ({ d with writer := r.1, buf := some r.2.1 }, r.2.2)

/-- What a pass of the copy loop does with the bytes it buffered: writes them, and on a
    partial write flushes and writes again; then it returns, or goes on with the next
    `needs_flush`. -/
def drainPass (d : Direction) : Direction × (Poll ⊕ Bool) :=
  match d.drainInto with
  | (d2, .error e) => (d2, .inl (.failed e))
  | (d2, .ok (.all _)) => (d2, .inr true)
  | (d2, .ok (.partly _)) =>
    -- only part of the bytes could be written: flush to make room, then write again
    match d2.pollFlush with
    | (d3, false) => (d3, .inl .pending)
    | (d3, true) =>
      match d3.drainInto with
      | (d4, .error e) => (d4, .inl (.failed e))
      | (d4, .ok (.partly _)) => (d4, .inl .pending)
      | (d4, .ok _) => (d4, .inr false)
  | (d2, .ok .buffer_empty) => (d2, .inl .ready)

end Direction

/-- Bytes and chunks left to read. -/
def Reader.size (r : Reader) : Nat := (r.chunks.map (·.length + 1)).sum

namespace Direction

/-- Twice what is left to read, plus one while bytes are buffered: every pass of the copy loop
    that does not return lowers it. -/
def measure (d : Direction) : Nat := 2 * d.reader.size + if d.buffered = [] then 0 else 1

end Direction

/-! ### Termination of the copy loop -/

/-- A read that returns bytes consumes them. -/
theorem Reader.size_poll_read {r r' : Reader} {bytes : List UInt8}
    (h : r.pollRead = (r', some bytes)) (hpos : 0 < bytes.length) : r'.size + 1 ≤ r.size := by
  unfold pollRead at h
  split at h
  · next c rest hc =>
    simp only [Prod.mk.injEq, Option.some.injEq] at h
    obtain ⟨rfl, rfl⟩ := h
    have hbuf : 0 < bufSize := by decide
    have hc0 : 0 < c.length := by rw [List.length_take] at hpos; omega
    unfold size
    rw [hc]
    split
    · simp only [List.map_cons, List.sum_cons]
      omega
    · next hlong =>
      simp only [List.map_cons, List.sum_cons, List.length_drop]
      omega
  · split at h
    · obtain ⟨-, h⟩ := Prod.mk.inj h
      cases h
      simp at hpos
    · cases h

/-- Short of EOF, `poll_buffer` leaves bytes buffered, read from the peer if none were. -/
theorem Direction.poll_buffer_measure {d d1 : Direction} {b : Buffered}
    (h : d.pollBuffer = (d1, some b)) (hb : b ≠ .eof) :
    2 * d1.reader.size + 1 ≤ d.measure := by
  unfold Direction.pollBuffer at h
  split at h
  · next hnone => cases h; exact absurd rfl hb
  · next b0 hsome =>
    split at h
    · -- bytes were buffered: nothing is read
      next hne =>
      cases h
      simp [Direction.measure, Direction.buffered, hsome, hne]
    · next hemp =>
      split at h
      · cases h
      · next r bytes hread =>
        split at h
        · next hpos =>
          cases h
          have := Reader.size_poll_read hread hpos
          simp only [Direction.measure]
          omega
        · cases h
          exact absurd rfl hb

/-- When the drain loop writes everything, nothing is left buffered. -/
theorem drain_loop_done {w : Writer} {b : List UInt8} {sz : Nat} {r : Drained}
    (h : (drainLoop w b sz).2.2 = .ok r) (hr : ∀ n, r ≠ .partly n) :
    (drainLoop w b sz).2.1 = [] := by
  revert h
  fun_induction drainLoop w b sz with
  | case1 => intro _; rfl
  | case2 =>
    intro h
    simp only [Except.ok.injEq] at h
    exact absurd h.symm (hr _)
  | case3 => intro h; cases h
  | case4 =>
    rename_i ih
    exact ih

@[simp] theorem Direction.poll_flush_reader (d : Direction) : d.pollFlush.1.reader = d.reader :=
  rfl

@[simp] theorem Direction.poll_flush_buf (d : Direction) : d.pollFlush.1.buf = d.buf := rfl

@[simp] theorem Direction.drain_into_reader (d : Direction) :
    d.drainInto.1.reader = d.reader := by
  unfold Direction.drainInto
  split <;> rfl

/-- A drain that does not stop short leaves nothing buffered. -/
theorem Direction.drain_into_done {d d' : Direction} {r : Drained}
    (h : d.drainInto = (d', .ok r)) (hr : ∀ n, r ≠ .partly n) : d'.buffered = [] := by
  unfold Direction.drainInto at h
  split at h
  · next hnone =>
    obtain ⟨rfl, -⟩ := Prod.mk.inj h
    simp [Direction.buffered, hnone]
  · next b hsome =>
    obtain ⟨rfl, hres⟩ := Prod.mk.inj h
    simp [Direction.buffered, drain_loop_done hres hr]

/-- A pass that goes on has emptied the buffer and read nothing. -/
theorem Direction.drain_pass_continue {d d2 : Direction} {nf : Bool}
    (h : d.drainPass = (d2, .inr nf)) : d2.reader = d.reader ∧ d2.buffered = [] := by
  unfold Direction.drainPass at h
  split at h
  · cases h
  · next d2' n hd =>
    obtain ⟨rfl, -⟩ := Prod.mk.inj h
    have e : d.drainInto.1 = d2' := by rw [hd]
    exact ⟨by rw [← e, drain_into_reader], drain_into_done hd (fun _ => by simp)⟩
  · next d2' n hd =>
    split at h
    · cases h
    · next d3 hf =>
      split at h
      · cases h
      · cases h
      · next d4 res hne hd4 =>
        obtain ⟨rfl, -⟩ := Prod.mk.inj h
        -- neither the flush nor the drains read anything
        have e1 : d.drainInto.1 = d2' := by rw [hd]
        have e2 : d2'.pollFlush.1 = d3 := by rw [hf]
        have e3 : d3.drainInto.1 = d4 := by rw [hd4]
        refine ⟨?_, drain_into_done hd4 fun m hm => hne m hm⟩
        rw [← e3, drain_into_reader, ← e2, poll_flush_reader, ← e1, drain_into_reader]
  · cases h

namespace Direction

set_option linter.unusedVariables false in
/-- The loop of `copy_into`, with its `needs_flush`. -/
def copyLoop (d : Direction) (needs_flush : Bool) : Direction × Poll :=
  match hb : d.pollBuffer with
  | (d1, none) =>
    -- nothing to read: flush what was written before returning pending
    if needs_flush then (d1.pollFlush.1, .pending) else (d1, .pending)
  | (d1, some b) =>
    if hb' : b = .eof then
      -- the source is done: shut the destination down
      match d1.writer.pollShutdown with
      | (w, true) => ({ d1 with writer := w, is_shutdown := true }, .ready)
      | (w, false) => ({ d1 with writer := w }, .pending)
    else
      match hp : d1.drainPass with
      | (d2, .inl p) => (d2, p)
      | (d2, .inr nf) => copyLoop d2 nf
termination_by d.measure
decreasing_by
  have h1 := poll_buffer_measure hb hb'
  obtain ⟨hr, hbuf⟩ := drain_pass_continue hp
  have h2 : d2.measure = 2 * d1.reader.size := by simp [measure, hr, hbuf]
  omega

/-- `HalfDuplex::copy_into`: nothing once the destination is shut down; a pending flush is
    resumed first; then the copy loop. -/
def copyInto (d : Direction) : Direction × Poll :=
  if d.is_shutdown then (d, .ready)
  else if d.flushing then
    match d.pollFlush with
    | (d1, false) => (d1, .pending)
    | (d1, true) => d1.copyLoop false
  else d.copyLoop false

end Direction

/-! ### What a copy keeps -/

namespace Writer

/-- A write appends to what was accepted the bytes it reports, and nothing reaches the wire. -/
theorem poll_write_accepted (w : Writer) (bytes : List UInt8) :
    (w.pollWrite bytes).1.accepted = w.accepted ++ bytes.take ((w.pollWrite bytes).2.getD 0) ∧
      (w.pollWrite bytes).1.flushed = w.flushed ∧
      (w.pollWrite bytes).1.shutdown = w.shutdown := by
  unfold pollWrite
  split <;> simp

end Writer

/-- The drain loop appends to what the writer accepted a prefix of the buffered bytes, and
    leaves the rest buffered. -/
theorem drain_loop_accepted (w : Writer) (b : List UInt8) (sz : Nat) :
    (∃ t, (drainLoop w b sz).1.accepted = w.accepted ++ t ∧
      t ++ (drainLoop w b sz).2.1 = b) ∧
      (drainLoop w b sz).1.flushed = w.flushed ∧
      (drainLoop w b sz).1.shutdown = w.shutdown := by
  fun_induction drainLoop w b sz with
  | case1 => exact ⟨⟨[], by simp⟩, rfl, rfl⟩
  | case2 w sz x xs w' hw =>
    -- the first write is pending: it accepted nothing
    obtain ⟨ha, hf, hs⟩ := w.poll_write_accepted (x :: xs)
    rw [hw] at ha hf hs
    exact ⟨⟨[], by simpa using ha, by simp⟩, hf, hs⟩
  | case3 w sz x xs w' hw =>
    obtain ⟨ha, hf, hs⟩ := w.poll_write_accepted (x :: xs)
    rw [hw] at ha hf hs
    exact ⟨⟨[], by simpa using ha, by simp⟩, hf, hs⟩
  | case4 w sz x xs w' n hw hn ih =>
    -- a write of `n` bytes, then the rest of the loop on what is left
    obtain ⟨⟨t, ht, hrest⟩, hf', hs'⟩ := ih
    obtain ⟨ha, hf, hs⟩ := w.poll_write_accepted (x :: xs)
    rw [hw] at ha hf hs
    refine ⟨⟨(x :: xs).take n ++ t, ?_, ?_⟩, hf'.trans hf, hs'.trans hs⟩
    · rw [ht, ha]
      simp
    · rw [List.append_assoc, hrest, List.take_append_drop]

/-- A read into an emptied buffer returns the front of what is unread: no bytes only at EOF
    after every chunk, otherwise some bytes with the rest left unread. -/
theorem Reader.poll_read_some {r r' : Reader} {bytes : List UInt8}
    (h : r.pollRead = (r', some bytes)) (hne : ∀ c ∈ r.chunks, c ≠ []) :
    (bytes = [] ∧ r.chunks = [] ∧ r.eof = true) ∨
      (bytes ≠ [] ∧ bytes ++ r'.chunks.flatten = r.chunks.flatten ∧ r'.sent = r.sent ∧
        r'.eof = r.eof ∧ ∀ c ∈ r'.chunks, c ≠ []) := by
  unfold pollRead at h
  split at h
  · next c rest hc =>
    simp only [Prod.mk.injEq, Option.some.injEq] at h
    obtain ⟨rfl, rfl⟩ := h
    have hc0 : c ≠ [] := hne c (by simp [hc])
    have hrest : ∀ c' ∈ rest, c' ≠ [] := fun c' hc' => hne c' (by simp [hc, hc'])
    refine Or.inr ⟨by simpa [bufSize] using hc0, ?_, rfl, rfl, ?_⟩
    · split
      · next hle => simp [hc, List.take_of_length_le hle]
      · simp only [hc, List.flatten_cons, ← List.append_assoc, List.take_append_drop]
    · split
      · exact hrest
      · next hlong =>
        intro c' hc'
        rcases List.mem_cons.1 hc' with rfl | hc'
        · simp only [ne_eq, List.drop_eq_nil_iff]
          omega
        · exact hrest c' hc'
  · next hc =>
    split at h
    · next heof =>
      simp only [Prod.mk.injEq, Option.some.injEq] at h
      exact Or.inl ⟨h.2.symm, hc, heof⟩
    · cases h

namespace Direction

/-- A direction's invariant, for a destination that had accepted `a0` before the copy: what it
    accepted since is a prefix of what the source sent, followed by what is buffered and what is
    unread; chunks are never empty; a buffer gone means EOF was read after every chunk; a
    destination marked shut down had its buffer gone and its shutdown completed; the wire holds
    a prefix of what was accepted. -/
structure Inv (a0 : List UInt8) (d : Direction) : Prop where
  conserves : ∃ copied, d.writer.accepted = a0 ++ copied ∧
    copied ++ d.buffered ++ d.reader.chunks.flatten = d.reader.sent
  chunks_ne : ∀ c ∈ d.reader.chunks, c ≠ []
  eof : d.buf = none → d.reader.chunks = [] ∧ d.reader.eof = true
  shut : d.is_shutdown = true → d.buf = none ∧ d.writer.shutdown = true
  flushed_le : d.writer.flushed ≤ d.writer.accepted.length

theorem Inv.pollBuffer {a0 : List UInt8} {d : Direction} (h : d.Inv a0) :
    d.pollBuffer.1.Inv a0 := by
  unfold Direction.pollBuffer
  split
  · exact h
  · next b hsome =>
    split
    · exact h
    · next hemp =>
      have hb : b = [] := by simpa using hemp
      -- an empty buffer: the destination is not shut down yet
      have hopen : d.is_shutdown = false := by
        cases hs : d.is_shutdown
        · rfl
        · simp [(h.shut hs).1] at hsome
      split
      · exact h
      · next r bytes hread =>
        obtain ⟨copied, hacc, hcons⟩ := h.conserves
        rcases Reader.poll_read_some hread h.chunks_ne with
          ⟨rfl, hc, he⟩ | ⟨hne, hflat, hsent, heof, hchunks⟩
        · -- zero bytes: EOF after every chunk
          simp only [List.length_nil, Nat.lt_irrefl, if_false]
          have hr : r = d.reader := by
            unfold Reader.pollRead at hread
            simp [hc, he] at hread
            exact hread.symm
          subst hr
          refine ⟨⟨copied, hacc, by simpa [buffered, hsome, hb] using hcons⟩, h.chunks_ne,
            (fun _ => ⟨hc, he⟩), (fun hs => by simp [hopen] at hs), h.flushed_le⟩
        · have hpos : 0 < bytes.length := List.length_pos_iff.2 hne
          simp only [hpos, if_true]
          refine ⟨⟨copied, hacc, ?_⟩, hchunks, (fun hn => by cases hn),
            (fun hs => by simp [hopen] at hs), h.flushed_le⟩
          simp only [buffered, Option.getD_some, List.append_assoc, hflat, hsent]
          simpa [buffered, hsome, hb] using hcons

theorem Inv.pollFlush {a0 : List UInt8} {d : Direction} (h : d.Inv a0) :
    d.pollFlush.1.Inv a0 := by
  unfold Direction.pollFlush Writer.pollFlush
  split
  · exact ⟨h.conserves, h.chunks_ne, h.eof, h.shut, Nat.le_refl _⟩
  · exact ⟨h.conserves, h.chunks_ne, h.eof, h.shut, h.flushed_le⟩

theorem Inv.drainInto {a0 : List UInt8} {d : Direction} (h : d.Inv a0) :
    d.drainInto.1.Inv a0 := by
  unfold Direction.drainInto
  split
  · exact h
  · next b hsome =>
    obtain ⟨⟨t, ht, hrest⟩, hf, hs⟩ := drain_loop_accepted d.writer b 0
    obtain ⟨copied, hacc, hcons⟩ := h.conserves
    refine ⟨⟨copied ++ t, ?_, ?_⟩, h.chunks_ne, (fun hn => by cases hn), (fun hsd => ?_),
      ?_⟩
    · simp [ht, hacc]
    · simp only [buffered, Option.getD_some, List.append_assoc] at hcons ⊢
      rw [hsome, Option.getD_some] at hcons
      rw [← hcons, ← List.append_assoc t, hrest]
    · simp [(h.shut hsd).1] at hsome
    · simp only [ht, hf, List.length_append]
      have := h.flushed_le
      omega

/-- Short of EOF nothing is read past the buffer, and EOF leaves the buffer gone. -/
theorem poll_buffer_eof {d d1 : Direction} (h : d.pollBuffer = (d1, some .eof)) :
    d1.buf = none := by
  unfold Direction.pollBuffer at h
  split at h
  · next hnone =>
    obtain ⟨rfl, -⟩ := Prod.mk.inj h
    exact hnone
  · split at h
    · cases h
    · split at h
      · cases h
      · split at h
        · cases h
        · obtain ⟨rfl, -⟩ := Prod.mk.inj h
          rfl

theorem Inv.drainPass {a0 : List UInt8} {d : Direction} (h : d.Inv a0) :
    d.drainPass.1.Inv a0 := by
  have h2 := h.drainInto
  unfold Direction.drainPass
  split
  · next d2 e hd => simpa [hd] using h2
  · next d2 n hd => simpa [hd] using h2
  · next d2 n hd =>
    have h3 := (show d2.Inv a0 by simpa [hd] using h2).pollFlush
    split
    · next d3 hf => simpa [hf] using h3
    · next d3 hf =>
      have h4 := (show d3.Inv a0 by simpa [hf] using h3).drainInto
      split <;> next d4 _ hd4 => simpa [hd4] using h4
  · next d2 hd => simpa [hd] using h2

/-- A completed shutdown marks the destination shut down; a pending one changes nothing. -/
theorem Writer.poll_shutdown_spec (w : Writer) :
    (w.pollShutdown.2 = true → w.pollShutdown.1 =
        { w with flushed := w.accepted.length, shutdown := true }) ∧
      (w.pollShutdown.2 = false → w.pollShutdown.1 = w) := by
  unfold Writer.pollShutdown
  split <;> simp

theorem Inv.copyLoop {a0 : List UInt8} {d : Direction} (nf : Bool) (h : d.Inv a0) :
    (d.copyLoop nf).1.Inv a0 := by
  fun_induction d.copyLoop nf with
  | case1 d d1 hb => exact (show d1.Inv a0 by simpa [hb] using h.pollBuffer).pollFlush
  | case2 d nf d1 hb _ => simpa [hb] using h.pollBuffer
  | case3 d nf d1 w hw hb =>
    -- EOF: the destination's shutdown completed with everything accepted
    have h1 : d1.Inv a0 := by simpa [hb] using h.pollBuffer
    have hbuf := poll_buffer_eof hb
    have hw' := (Writer.poll_shutdown_spec d1.writer).1 (by rw [hw])
    rw [hw] at hw'
    subst hw'
    exact ⟨h1.conserves, h1.chunks_ne, h1.eof, fun _ => ⟨hbuf, rfl⟩, Nat.le_refl _⟩
  | case4 d nf d1 w hw hb =>
    have h1 : d1.Inv a0 := by simpa [hb] using h.pollBuffer
    have hw' := (Writer.poll_shutdown_spec d1.writer).2 (by rw [hw])
    rw [hw] at hw'
    subst hw'
    exact h1
  | case5 d nf d1 b hb _ d2 p hp =>
    have h1 : d1.Inv a0 := by simpa [hb] using h.pollBuffer
    simpa [hp] using h1.drainPass
  | case6 d nf d1 b hb _ d2 nf' hp ih =>
    have h1 : d1.Inv a0 := by simpa [hb] using h.pollBuffer
    exact ih (by simpa [hp] using h1.drainPass)

theorem Inv.copyInto {a0 : List UInt8} {d : Direction} (h : d.Inv a0) :
    d.copyInto.1.Inv a0 := by
  unfold Direction.copyInto
  split
  · exact h
  · split
    · have h1 := h.pollFlush
      split
      · next d1 hf => simpa [hf] using h1
      · next d1 hf => exact (show d1.Inv a0 by simpa [hf] using h1).copyLoop false
    · exact h.copyLoop false

end Direction

/-! ### The duplex and its environment -/

/-- A `Duplex`: the copy from `In` to `Out` (`half_in` into `half_out`, "client->server") and the
    copy back ("server->client"). -/
structure Duplex where
  client_server : Direction
  server_client : Direction
  deriving DecidableEq, Repr

/-- A peer of the duplex: `In`, the client, or `Out`, the server. -/
inductive Side where
  | client
  | server
  deriving DecidableEq, Repr

/-- What a peer does between polls: it sends bytes, sends EOF, resizes its write buffer, or lets
    flushes complete or not. -/
inductive PeerOp where
  | send (bytes : List UInt8)
  | close
  | resize (capacity : Nat)
  | flush_ready (ready : Bool)
  deriving DecidableEq, Repr

/-- The inputs: `Duplex::poll`, or a peer's operation. -/
inductive Event where
  | poll
  | peer (side : Side) (op : PeerOp)
  deriving DecidableEq, Repr

namespace PeerOp

/-- A peer operation on the peer's read side. -/
def onReader : PeerOp → Reader → Reader
  | .send bytes, r => r.send bytes
  | .close, r => r.close
  | _, r => r

/-- A peer operation on the peer's write side. -/
def onWriter : PeerOp → Writer → Writer
  | .resize capacity, w => { w with capacity := capacity }
  | .flush_ready ready, w => { w with flush_ready := ready }
  | _, w => w

end PeerOp

namespace Duplex

/-- `Duplex::new`: both halves with an empty `CopyBuf`, neither shut down nor flushing. -/
def new (in_io out_io : Peer) : Duplex where
  client_server := ⟨some [], false, in_io.reader, out_io.writer, false⟩
  server_client := ⟨some [], false, out_io.reader, in_io.writer, false⟩

/-- `Duplex::poll`: both copies are driven whatever the first returns, an error aside; the
    future is ready once both halves are done. -/
def poll (x : Duplex) : Duplex × Poll :=
  let a := x.client_server.copyInto
  match a.2 with
  | .failed e => ({ x with client_server := a.1 }, .failed e)
  | _ =>
    let b := x.server_client.copyInto
    match b.2 with
    | .failed e => (⟨a.1, b.1⟩, .failed e)
    | _ => (⟨a.1, b.1⟩, if b.1.is_shutdown && a.1.is_shutdown then .ready else .pending)

/-- A peer's operation: `In` feeds the copy to `Out` and is written by the copy back; `Out` the
    other way round. -/
def apply (x : Duplex) : Side → PeerOp → Duplex
  | .client, op =>
    ⟨{ x.client_server with reader := op.onReader x.client_server.reader },
      { x.server_client with writer := op.onWriter x.server_client.writer }⟩
  | .server, op =>
    ⟨{ x.client_server with writer := op.onWriter x.client_server.writer },
      { x.server_client with reader := op.onReader x.server_client.reader }⟩

/-- One input; a poll shows its result. -/
def step (x : Duplex) : Event → Duplex × List Poll
  | .poll => (x.poll.1, [x.poll.2])
  | .peer side op => (x.apply side op, [])

/-- The duplex in its environment, as a machine. -/
def machine : Machine Duplex Event Poll := ⟨step⟩

end Duplex

/-! ### The laws of a run -/

namespace Direction

/-- The peer's operations on a direction's read side keep its invariant: bytes sent join the
    unread chunks, and nothing is sent after EOF. -/
theorem Inv.onReader {a0 : List UInt8} {d : Direction} (h : d.Inv a0) (op : PeerOp) :
    ({ d with reader := op.onReader d.reader } : Direction).Inv a0 := by
  cases op with
  | send bytes =>
    simp only [PeerOp.onReader, Reader.send]
    split
    · exact h
    · next hcond =>
      have ⟨heof, hne⟩ : d.reader.eof = false ∧ bytes ≠ [] := by simpa using hcond
      obtain ⟨copied, hacc, hcons⟩ := h.conserves
      refine ⟨⟨copied, hacc, ?_⟩, fun c hc => ?_, fun hn => ?_, h.shut, h.flushed_le⟩
      · simp only [buffered, List.flatten_append, List.flatten_singleton,
          ← List.append_assoc] at hcons ⊢
        rw [hcons]
      · rcases List.mem_append.1 hc with hc | hc
        · exact h.chunks_ne c hc
        · simp only [List.mem_singleton] at hc
          exact hc ▸ hne
      · simp [(h.eof hn).2] at heof
  | close =>
    exact ⟨h.conserves, h.chunks_ne, fun hn => ⟨(h.eof hn).1, rfl⟩, h.shut, h.flushed_le⟩
  | resize c => exact h
  | flush_ready b => exact h

/-- The peer's operations on a direction's write side change neither what it accepted nor what
    reached the wire. -/
theorem Inv.onWriter {a0 : List UInt8} {d : Direction} (h : d.Inv a0) (op : PeerOp) :
    ({ d with writer := op.onWriter d.writer } : Direction).Inv a0 := by
  cases op with
  | resize c => exact ⟨h.conserves, h.chunks_ne, h.eof, h.shut, h.flushed_le⟩
  | flush_ready b => exact ⟨h.conserves, h.chunks_ne, h.eof, h.shut, h.flushed_le⟩
  | send bytes => exact h
  | close => exact h

/-- What a direction's invariant says, for a destination that had accepted nothing before: its
    bytes, then the buffer, then what is unread, are what the source sent; the wire holds a
    prefix of them; and once shut down, it accepted everything the source sent, and EOF. -/
theorem Inv.law {d : Direction} (h : d.Inv []) :
    d.writer.accepted ++ d.buffered ++ d.reader.chunks.flatten = d.reader.sent ∧
      d.writer.flushed ≤ d.writer.accepted.length ∧
      (d.is_shutdown = true →
        d.writer.shutdown = true ∧ d.writer.accepted = d.reader.sent ∧
          d.reader.eof = true) := by
  obtain ⟨copied, hacc, hcons⟩ := h.conserves
  rw [List.nil_append] at hacc
  subst hacc
  refine ⟨hcons, h.flushed_le, fun hs => ?_⟩
  obtain ⟨hbuf, hshut⟩ := h.shut hs
  obtain ⟨hchunks, heof⟩ := h.eof hbuf
  refine ⟨hshut, ?_, heof⟩
  simpa [buffered, hbuf, hchunks] using hcons

end Direction

namespace Duplex

/-- `Duplex::poll` drives the first copy, then the second unless the first failed. -/
theorem poll_parts (x : Duplex) :
    x.poll.1.client_server = x.client_server.copyInto.1 ∧
      (x.poll.1.server_client = x.server_client ∨
        x.poll.1.server_client = x.server_client.copyInto.1) := by
  unfold poll
  dsimp only
  split
  · exact ⟨rfl, Or.inl rfl⟩
  · split <;> exact ⟨rfl, Or.inr rfl⟩

/-- `Duplex::poll` is ready only once both halves are done. -/
theorem poll_ready_done {x : Duplex} (h : x.poll.2 = .ready) :
    x.poll.1.client_server.is_shutdown = true ∧ x.poll.1.server_client.is_shutdown = true := by
  unfold poll at h ⊢
  dsimp only at h ⊢
  split at h
  · cases h
  · split at h
    · cases h
    · dsimp only at h ⊢
      split at h
      · next hboth =>
        simp only [Bool.and_eq_true] at hboth
        exact ⟨hboth.2, hboth.1⟩
      · cases h

/-- Both directions keep their invariant, for destinations that had accepted nothing before the
    duplex began. -/
def Inv (x : Duplex) : Prop := x.client_server.Inv [] ∧ x.server_client.Inv []

theorem Inv.new (ci co : Nat) (fi fo : Bool) :
    (Duplex.new (Peer.connected ci fi) (Peer.connected co fo)).Inv := by
  -- both directions start with nothing sent, read or accepted, and an empty buffer
  refine ⟨⟨⟨[], rfl, rfl⟩, ?_, ?_, ?_, ?_⟩,
    ⟨⟨[], rfl, rfl⟩, ?_, ?_, ?_, ?_⟩⟩ <;> simp [Duplex.new, Peer.connected]

theorem Inv.poll {x : Duplex} (h : x.Inv) : x.poll.1.Inv := by
  obtain ⟨hcs, hsc⟩ := poll_parts x
  refine ⟨hcs ▸ h.1.copyInto, ?_⟩
  rcases hsc with hsc | hsc
  · exact hsc ▸ h.2
  · exact hsc ▸ h.2.copyInto

theorem Inv.apply {x : Duplex} (h : x.Inv) (side : Side) (op : PeerOp) : (x.apply side op).Inv := by
  cases side with
  | client => exact ⟨h.1.onReader op, h.2.onWriter op⟩
  | server => exact ⟨h.1.onWriter op, h.2.onReader op⟩

theorem Inv.step {x : Duplex} (h : x.Inv) (e : Event) : (x.step e).1.Inv := by
  cases e with
  | poll => exact h.poll
  | peer side op => exact h.apply side op

end Duplex

/-- **The duplex's law**, over every run from two freshly connected peers: in each direction,
    the bytes the destination accepted, then the bytes buffered, then the bytes unread, are what
    the source sent, so what the destination accepted is a prefix of what the source sent; the
    wire holds a prefix of what was accepted; a destination is marked shut down only after its
    `poll_shutdown` completed, having accepted everything its source sent, and EOF; and the
    `Duplex` resolves `Ok` only when that holds of both. -/
theorem duplex_law (ci co : Nat) (fi fo : Bool) (evs : List Event) :
    let x := (Duplex.machine.run (Duplex.new (Peer.connected ci fi) (Peer.connected co fo)) evs).1
    (∀ d ∈ [x.client_server, x.server_client],
      d.writer.accepted ++ d.buffered ++ d.reader.chunks.flatten = d.reader.sent ∧
      d.writer.flushed ≤ d.writer.accepted.length ∧
      (d.is_shutdown = true →
        d.writer.shutdown = true ∧ d.writer.accepted = d.reader.sent ∧ d.reader.eof = true)) ∧
    (x.poll.2 = .ready →
      ∀ d ∈ [x.poll.1.client_server, x.poll.1.server_client],
        d.writer.shutdown = true ∧ d.writer.accepted = d.reader.sent ∧
          d.reader.eof = true) := by
  intro x
  have h : x.Inv := Machine.run_invariant Duplex.machine (fun _ => True) Duplex.Inv
    (fun x e _ hx => hx.step e) evs _ (fun _ _ => trivial) (Duplex.Inv.new ci co fi fo)
  refine ⟨fun d hd => ?_, fun hready d hd => ?_⟩
  · simp only [List.mem_cons, List.not_mem_nil, or_false] at hd
    rcases hd with rfl | rfl
    · exact h.1.law
    · exact h.2.law
  · have hp := h.poll
    obtain ⟨hcs, hsc⟩ := Duplex.poll_ready_done hready
    simp only [List.mem_cons, List.not_mem_nil, or_false] at hd
    rcases hd with rfl | rfl
    · exact hp.1.law.2.2 hcs
    · exact hp.2.law.2.2 hsc

/-! ### A flush the copy forgets -/

namespace Direction

/-- A half with nothing to do until its source sends more: an empty buffer, nothing unread and no
    EOF from the source, no flush to resume, and the destination not shut down. -/
def starved (d : Direction) : Bool :=
  d.buf == some [] && d.reader.chunks.isEmpty && !d.reader.eof && !d.flushing && !d.is_shutdown

theorem poll_buffer_starved {d : Direction} (h : d.starved = true) :
    d.pollBuffer = (d, none) := by
  simp only [starved, Bool.and_eq_true, beq_iff_eq, List.isEmpty_iff, Bool.not_eq_eq_eq_not,
    Bool.not_true] at h
  obtain ⟨⟨⟨⟨hbuf, hch⟩, heof⟩, _⟩, _⟩ := h
  simp [pollBuffer, hbuf, Reader.pollRead, hch, heof]

/-- A starved half's copy is pending and changes nothing, however ready its destination is: the
    loop owes no flush when it starts, so it attempts none. -/
theorem copy_into_starved {d : Direction} (h : d.starved = true) :
    d.copyInto = (d, .pending) := by
  have hpb := poll_buffer_starved h
  simp only [starved, Bool.and_eq_true, Bool.not_eq_eq_eq_not, Bool.not_true] at h
  obtain ⟨⟨_, hfl⟩, hsh⟩ := h
  unfold copyInto
  rw [if_neg (by simp [hsh]), if_neg (by simp [hfl]), copyLoop]
  split
  · next d1 hb =>
    rw [hpb] at hb
    cases hb
    rfl
  · next d1 b hb =>
    rw [hpb] at hb
    cases hb

end Direction

/-- Whether an input has `In` feed the copy to `Out`: it sends bytes or EOF. -/
def Event.feedsClient : Event → Bool
  | .peer .client (.send _) => true
  | .peer .client .close => true
  | _ => false

namespace Duplex

/-- While `In` sends nothing, a starved copy to `Out` stays starved and nothing of it moves:
    polls leave it as it is, and `Out`'s operations only resize its buffer or let flushes
    complete. -/
theorem step_starved {x : Duplex} {e : Event} (hs : x.client_server.starved = true)
    (he : Event.feedsClient e = false) :
    (x.step e).1.client_server.starved = true ∧
      (x.step e).1.client_server.reader.sent = x.client_server.reader.sent ∧
      (x.step e).1.client_server.writer.accepted = x.client_server.writer.accepted ∧
      (x.step e).1.client_server.writer.flushed = x.client_server.writer.flushed := by
  cases e with
  | poll =>
    have hcs : x.poll.1.client_server = x.client_server := by
      rw [(poll_parts x).1, Direction.copy_into_starved hs]
    simp [Duplex.step, hcs, hs]
  | peer side op =>
    cases side <;> cases op <;>
      simp_all [Event.feedsClient, Duplex.step, Duplex.apply, PeerOp.onReader, PeerOp.onWriter,
        Direction.starved]

/-- Over every run in which `In` sends nothing, a starved copy to `Out` keeps its bytes where
    they are: the bytes read, accepted and flushed stay as they were. -/
theorem run_starved (x : Duplex) (evs : List Event) (hs : x.client_server.starved = true)
    (hq : ∀ e ∈ evs, Event.feedsClient e = false) :
    (machine.run x evs).1.client_server.reader.sent = x.client_server.reader.sent ∧
      (machine.run x evs).1.client_server.writer.accepted = x.client_server.writer.accepted ∧
      (machine.run x evs).1.client_server.writer.flushed = x.client_server.writer.flushed := by
  -- the invariant: starved, with the three ledgers of the starting state
  have h := Machine.run_invariant machine (fun e => Event.feedsClient e = false)
    (fun y => y.client_server.starved = true ∧
      y.client_server.reader.sent = x.client_server.reader.sent ∧
      y.client_server.writer.accepted = x.client_server.writer.accepted ∧
      y.client_server.writer.flushed = x.client_server.writer.flushed)
    (fun y e he hy => by
      obtain ⟨hs', hsent, hacc, hfl⟩ := step_starved hy.1 he
      exact ⟨hs', hsent.trans hy.2.1, hacc.trans hy.2.2.1, hfl.trans hy.2.2.2⟩)
    evs x hq ⟨hs, rfl, rfl, rfl⟩
  exact h.2

/-- `In` sent four bytes to a duplex whose `Out` has a two-byte buffer and completes every flush,
    and the duplex was polled once.  The copy read the four bytes; its first write accepted two
    and was pending (`Drained::Partial`); the flush completed; the second write accepted the other
    two (`Drained::All`), and `needs_flush` was cleared; then `In` was pending, and the copy
    returned pending without flushing. -/
def stalled : Duplex :=
  (machine.run (Duplex.new (Peer.connected 0 true) (Peer.connected 2 true))
    [.peer .client (.send [1, 2, 3, 4]), .poll]).1

end Duplex

/-- **The forgotten flush.**  From `stalled`, over every continuation in which `In` sends nothing
    more (polls as many as may come, and `Out` resizing its buffer or completing flushes as it
    likes), the copy to `Out` has read four bytes from `In` and `Out` accepted all four, yet only
    the first two ever reach the wire: no waker of `Out` is registered, the read of `In` stays
    pending, and every later poll returns pending without a flush. -/
theorem flush_dropped (evs : List Event)
    (hquiet : ∀ e ∈ evs, Event.feedsClient e = false) :
    (Duplex.machine.run Duplex.stalled evs).1.client_server.reader.sent = [1, 2, 3, 4] ∧
      (Duplex.machine.run Duplex.stalled evs).1.client_server.writer.accepted = [1, 2, 3, 4] ∧
      (Duplex.machine.run Duplex.stalled evs).1.client_server.writer.flushed = 2 := by
  have h0 : Duplex.stalled.client_server.starved = true ∧
      Duplex.stalled.client_server.reader.sent = [1, 2, 3, 4] ∧
      Duplex.stalled.client_server.writer.accepted = [1, 2, 3, 4] ∧
      Duplex.stalled.client_server.writer.flushed = 2 := by
    decide +kernel
  obtain ⟨hsent, hacc, hfl⟩ := Duplex.run_starved Duplex.stalled evs h0.1 hquiet
  exact ⟨hsent.trans h0.2.1, hacc.trans h0.2.2.1, hfl.trans h0.2.2.2⟩

theorem flush_dropped_polled :
    (∀ e ∈ [Event.poll, .peer .server (.flush_ready true), .poll],
        Event.feedsClient e = false) ∧
      (Duplex.machine.run Duplex.stalled
          [.poll, .peer .server (.flush_ready true), .poll]).1.client_server.writer.flushed = 2 :=
  ⟨by decide, (flush_dropped _ (by decide)).2.2⟩

end LinkerdProxy.DuplexIo
