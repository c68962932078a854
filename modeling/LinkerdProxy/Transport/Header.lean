import LinkerdProxy.Addr.NameAddr
import LinkerdProxy.Lib.Except

namespace LinkerdProxy.Transport

open Addr (Name)

/-!
# The transport header (`transport_header`)

A proxy that forwards a connection to another proxy first writes a transport header: a fixed
preface, the length of a protobuf message as a big-endian `u32`, then the message, which names
the target port and, optionally, a name and a session protocol.  The receiving proxy reads into a
64 KiB buffer until it can tell whether the preface is there, then until it holds the message,
decodes it, and passes the bytes it read beyond the message on in front of the connection.

Reads are modelled as the chunks the connection delivers, one per read; a read taking part of
what the peer sent is a finer split of the same bytes.  prost's `Header::decode` is a parameter.

* `fill_spec` — a read loop keeps every byte, in order, between the buffer and the unread chunks;
* `decode_to_proto` — decoding what `to_proto` gives returns the header, for a non-zero port;
* `read_prefaced_round_trip` — over every split into reads, reading an encoded header followed by
  any bytes returns the header and leaves exactly those bytes, and a stream without the preface
  is returned untouched.
-/

/-! ### Buffers and streams -/

/-- `io::ErrorKind`, through the kinds the header reports. -/
inductive ErrorKind where
  | invalidData
  | unexpectedEof
  deriving DecidableEq, Repr

/-- `io::Error::new(kind, msg)`. -/
structure IoError where
  kind : ErrorKind
  msg : String
  deriving DecidableEq, Repr

/-- An input stream, as the reads it delivers in turn: each a non-empty chunk, then reads of
    zero bytes. -/
structure ReadStream where
  chunks : List (List UInt8)
  nonempty : [] ∉ chunks

/-- `BytesMut`, through its bytes and its capacity. -/
structure BytesMut where
  bytes : List UInt8
  cap : Nat
  deriving DecidableEq, Repr

/-- The four bytes of `BufMut::put_u32`, most significant first. -/
def putU32 (n : Nat) : List UInt8 :=
  [(n / 16777216 % 256).toUInt8, (n / 65536 % 256).toUInt8, (n / 256 % 256).toUInt8,
    (n % 256).toUInt8]

/-- The value `Buf::get_u32` reads from the first four bytes. -/
def beU32 (bs : List UInt8) : Nat :=
  (bs.getD 0 0).toNat * 16777216 + (bs.getD 1 0).toNat * 65536 + (bs.getD 2 0).toNat * 256 +
    (bs.getD 3 0).toNat

namespace BytesMut

/-- `BytesMut::with_capacity`. -/
def withCapacity (n : Nat) : BytesMut := ⟨[], n⟩

/-- `BytesMut::len`. -/
def len (b : BytesMut) : Nat := b.bytes.length

/-- `AsyncReadExt::read_buf` of a chunk: its bytes are appended, the buffer growing to hold
    them. -/
def read (b : BytesMut) (c : List UInt8) : BytesMut := ⟨b.bytes ++ c, max b.cap (b.len + c.length)⟩

/-- `Buf::advance`: the first bytes are consumed, and the capacity with them. -/
def advance (b : BytesMut) (n : Nat) : BytesMut := ⟨b.bytes.drop n, b.cap - n⟩

/-- `Buf::get_u32`. -/
def getU32 (b : BytesMut) : Nat × BytesMut := (beU32 b.bytes, b.advance 4)

/-- `BytesMut::reserve`: room for `n` more bytes. -/
def reserve (b : BytesMut) (n : Nat) : BytesMut := ⟨b.bytes, max b.cap (b.len + n)⟩

/-- `BytesMut::split_to`: the first `n` bytes, and the buffer of the rest. -/
def splitTo (b : BytesMut) (n : Nat) : List UInt8 × BytesMut :=
  (b.bytes.take n, ⟨b.bytes.drop n, b.cap - n⟩)

end BytesMut

/-! ### The header and its message -/

/-- `SessionProtocol`. -/
inductive SessionProtocol where
  | http1
  | http2
  deriving DecidableEq, Repr

/-- `TransportHeader`. -/
structure TransportHeader where
  port : UInt16
  name : Option Name
  protocol : Option SessionProtocol
  deriving DecidableEq

namespace proto

/-- `session_protocol::Kind`: an empty `Http1` or `Http2` message. -/
inductive Kind where
  | http1
  | http2
  deriving DecidableEq, Repr

/-- The message `SessionProtocol`. -/
structure SessionProtocol where
  kind : Option Kind
  deriving DecidableEq, Repr

/-- The message `Header`; `port` is an `int32`. -/
structure Header where
  port : Int
  name : String
  session_protocol : Option SessionProtocol
  deriving DecidableEq, Repr

end proto

/-- `prost::encoding::encode_varint` on a `u64`: seven bits a byte, least significant first,
    the high bit set on all but the last; a `u64` needs at most ten bytes. -/
def encodeVarint (v : Nat) : List UInt8 := go 10 v
where
  go : Nat → Nat → List UInt8
    | 0, _ => []
    | fuel + 1, v => if v < 128 then [v.toUInt8] else (v % 128 + 128).toUInt8 :: go fuel (v / 128)

/-- The bytes of `SessionProtocol::encode_raw`: its `kind`, an empty message under tag 1 or 2. -/
def encodeSessionProtocol (p : proto.SessionProtocol) : List UInt8 :=
  match p.kind with
  | some .http1 => [10, 0]
  | some .http2 => [18, 0]
  | none => []

/-- A length-delimited field: its key, the payload's length as a varint, then the payload. -/
def encodeLenDelim (key : UInt8) (payload : List UInt8) : List UInt8 :=
  key :: encodeVarint payload.length ++ payload

/-- `Header`'s field 1, `port`: an `int32` varint, sign-extended to 64 bits, unless zero. -/
def encodePort (port : Int) : List UInt8 :=
  if port ≠ 0 then 8 :: encodeVarint (port % 2 ^ 64).toNat else []

/-- `Header`'s field 2, `name`: its UTF-8 bytes, unless empty. -/
def encodeName (name : String) : List UInt8 :=
  if name ≠ "" then encodeLenDelim 18 (name.toList.flatMap String.utf8EncodeChar) else []

/-- `Header`'s field 3, `session_protocol`: the message, when there is one. -/
def encodeSessionProtocolField : Option proto.SessionProtocol → List UInt8
  | some p => encodeLenDelim 26 (encodeSessionProtocol p)
  | none => []

/-- The bytes of `Header::encode`: its fields in the order of their tags. -/
def encodeHeader (m : proto.Header) : List UInt8 :=
  encodePort m.port ++ encodeName m.name ++ encodeSessionProtocolField m.session_protocol

/-- `TransportHeader::to_proto`. -/
def TransportHeader.toProto (h : TransportHeader) : proto.Header where
  port := h.port.toNat
  name := (h.name.map Name.value).getD ""
  session_protocol := h.protocol.map fun
    | .http1 => ⟨some .http1⟩
    | .http2 => ⟨some .http2⟩

/-- `PREFACE`: `transport.l5d.io/v1\r\n\r\n`. -/
def PREFACE : List UInt8 := "transport.l5d.io/v1\r\n\r\n".toList.map fun c => c.toNat.toUInt8

/-- `PREFACE_AND_SIZE_LEN`. -/
def PREFACE_AND_SIZE_LEN : Nat := PREFACE.length + 4

/-- `u32::MAX`. -/
def U32_MAX : Nat := 2 ^ 32 - 1

/-- `TransportHeader::encode_prefaced`: the preface, the message's length and the message. -/
def encodePrefaced (h : TransportHeader) : Except IoError (List UInt8) :=
  let header := encodeHeader h.toProto
  if header.length > U32_MAX then .error ⟨.invalidData, "Message length exceeds capacity"⟩
  else .ok (PREFACE ++ putU32 header.length ++ header)

/-- The name a decoded message carries: none when empty, else it must parse. -/
def decodeName (name : String) : Except IoError (Option Name) :=
  if name.isEmpty then pure none
  else
    match Name.fromStr name with
    | some n => pure (some n)
    | none => throw ⟨.invalidData, "invalid DNS name"⟩

/-- The session protocol a decoded message carries. -/
def decodeProtocol (sp : Option proto.SessionProtocol) : Option SessionProtocol :=
  sp.bind fun p => p.kind.map fun
    | .http1 => .http1
    | .http2 => .http2

/-- `TransportHeader::decode`, with prost's `Header::decode` as `proto_decode`, which fails with
    its error's text: the name is read first, then the port must be a non-zero `u16`. -/
def decode (proto_decode : List UInt8 → Except String proto.Header) (msg : List UInt8) :
    Except IoError (Option TransportHeader) := do
  let h ← (proto_decode msg).mapError fun e => ⟨.invalidData, e⟩
  let name ← decodeName h.name
  if h.port ≤ 0 ∨ h.port > 65535 then throw ⟨.invalidData, "Invalid port value"⟩
  pure (some ⟨UInt16.ofNat h.port.toNat, name, decodeProtocol h.session_protocol⟩)

/-! ### Reading -/

/-- `while buf.len() < n { if io.read_buf(buf).await? == 0 { .. } }`: read until the buffer holds
    `n` bytes; `false` when a read returns nothing first.  Returns the buffer and the reads left. -/
def fill (n : Nat) (buf : BytesMut) : List (List UInt8) → Bool × BytesMut × List (List UInt8)
  | [] => (decide (n ≤ buf.len), buf, [])
  | c :: cs =>
    if buf.len < n then
      if c.isEmpty then (false, buf, cs) else fill n (buf.read c) cs
    else (true, buf, c :: cs)

/-- `TransportHeader::read_prefaced`: the header, or `None` when the stream does not start with
    the preface; with the buffer and the reads left. -/
def readPrefaced (proto_decode : List UInt8 → Except String proto.Header)
    (io : List (List UInt8)) (buf : BytesMut) :
    Except IoError (Option TransportHeader) × BytesMut × List (List UInt8) :=
  -- enough bytes to tell whether a header is present, and how long it is
  match fill PREFACE_AND_SIZE_LEN buf io with
  | (false, buf, io) => (.ok none, buf, io)
  | (true, buf, io) =>
    if buf.bytes.take PREFACE.length ≠ PREFACE then (.ok none, buf, io)
    else
      let buf := buf.advance PREFACE.length
      let (msg_len, buf) := buf.getU32
      if msg_len > buf.cap + PREFACE_AND_SIZE_LEN then
        (.error ⟨.invalidData, "Message length exceeds capacity"⟩, buf, io)
      else
        match fill msg_len (buf.reserve msg_len) io with
        | (false, buf, io) =>
          (.error ⟨.unexpectedEof, "Full header message not provided"⟩, buf, io)
        | (true, buf, io) =>
          let (msg, buf) := buf.splitTo msg_len
          (decode proto_decode msg, buf, io)

/-- `TransportHeaderServer::call`, but for its timeout: read the header into a fresh 64 KiB
    buffer; the inner service gets the header and the connection with the buffered bytes in front
    (`PrefixedIo`). -/
def call (proto_decode : List UInt8 → Except String proto.Header) (io : List (List UInt8)) :
    Except IoError (TransportHeader × List UInt8 × List (List UInt8)) :=
  match readPrefaced proto_decode io (.withCapacity (1024 * 64)) with
  | (.ok (some hdr), buf, io) => .ok (hdr, buf.bytes, io)
  | (.ok none, _, _) => .error ⟨.invalidData, "Connection did not include a transport header"⟩
  | (.error e, _, _) => .error e

/-! ### Encoding -/

theorem length_put_u32 (n : Nat) : (putU32 n).length = 4 := rfl

theorem be_u32_put_u32_append {n : Nat} (h : n < 2 ^ 32) (rest : List UInt8) :
    beU32 (putU32 n ++ rest) = n := by
  simp only [beU32, putU32, List.cons_append, List.nil_append, List.getD_cons_zero,
    List.getD_cons_succ, Nat.toUInt8_eq, UInt8.toNat_ofNat']
  omega

theorem length_encode_varint_go_le : ∀ (fuel v : Nat), (encodeVarint.go fuel v).length ≤ fuel
  | 0, _ => le_rfl
  | fuel + 1, v => by
    unfold encodeVarint.go
    split
    · simp
    · simpa using length_encode_varint_go_le fuel (v / 128)

theorem length_encode_varint_le (v : Nat) : (encodeVarint v).length ≤ 10 :=
  length_encode_varint_go_le 10 v

theorem length_encode_len_delim_le (key : UInt8) (payload : List UInt8) :
    (encodeLenDelim key payload).length ≤ 11 + payload.length := by
  have := length_encode_varint_le payload.length
  simp only [encodeLenDelim, List.cons_append, List.length_cons, List.length_append]
  omega

theorem length_utf8 (s : List Char) :
    (s.flatMap String.utf8EncodeChar).length = Addr.utf8Len s := by
  simp [List.length_flatMap, String.length_utf8EncodeChar, Addr.utf8Len]

/-- A header's message is short: at most 288 bytes, its name having at most 253. -/
theorem length_encode_header_le (h : TransportHeader) :
    (encodeHeader h.toProto).length ≤ 288 := by
  have hport : (encodePort h.toProto.port).length ≤ 11 := by
    unfold encodePort
    split
    · have := length_encode_varint_le ((h.toProto.port % 2 ^ 64).toNat)
      simp only [List.length_cons]
      omega
    · simp
  have hname : (encodeName h.toProto.name).length ≤ 264 := by
    unfold encodeName
    split
    · refine le_trans (length_encode_len_delim_le 18 _) ?_
      -- a name has at most 253 bytes
      cases hn : h.name with
      | none => simp [TransportHeader.toProto, hn]
      | some n =>
        have := Addr.utf8_len_le_of_valid n.valid
        simp only [TransportHeader.toProto, hn, Option.map_some, Option.getD_some, length_utf8]
        omega
    · simp
  have hsp : (encodeSessionProtocolField h.toProto.session_protocol).length ≤ 13 := by
    unfold encodeSessionProtocolField
    split
    · rename_i p _
      refine le_trans (length_encode_len_delim_le 26 _) ?_
      have : (encodeSessionProtocol p).length ≤ 2 := by
        unfold encodeSessionProtocol
        split <;> simp
      omega
    · simp
  simp only [encodeHeader, List.length_append]
  omega

/-! ### Decoding -/

theorem decode_name_to_proto (h : TransportHeader) : decodeName h.toProto.name = .ok h.name := by
  obtain ⟨port, name, protocol⟩ := h
  cases name with
  | none => rfl
  | some n =>
    -- a name is never empty, and parses back to itself
    have hne : n.value.isEmpty = false := by
      rw [Bool.eq_false_iff, ne_eq, String.isEmpty_iff]
      intro hv
      apply Addr.ne_nil_of_valid n.valid
      rw [hv]
      rfl
    simp only [TransportHeader.toProto, Option.map_some, Option.getD_some, decodeName, hne,
      Bool.false_eq_true, if_false, Addr.Name.from_str_value]
    rfl

theorem decode_protocol_to_proto (h : TransportHeader) :
    decodeProtocol h.toProto.session_protocol = h.protocol := by
  obtain ⟨port, name, protocol⟩ := h
  cases protocol with
  | none => rfl
  | some p => cases p <;> rfl

/-- **Decoding inverts `to_proto`.**  Given prost's round trip on the message, decoding it returns
    the header, when its port is not zero. -/
theorem decode_to_proto (proto_decode : List UInt8 → Except String proto.Header)
    (h : TransportHeader) (hport : h.port ≠ 0)
    (hdec : proto_decode (encodeHeader h.toProto) = .ok h.toProto) :
    decode proto_decode (encodeHeader h.toProto) = .ok (some h) := by
  have hpos : 0 < h.port.toNat := by
    rw [Nat.pos_iff_ne_zero]
    intro h0
    exact hport (UInt16.toNat_inj.mp (by rw [h0]; rfl))
  have hlt := UInt16.toNat_lt h.port
  -- the port is within the range `decode` accepts
  have hrange : ¬ (h.toProto.port ≤ 0 ∨ h.toProto.port > 65535) := by
    simp only [TransportHeader.toProto]
    omega
  have hport' : UInt16.ofNat h.toProto.port.toNat = h.port := by
    simp only [TransportHeader.toProto, Int.toNat_natCast, UInt16.ofNat_toNat]
  simp only [decode, hdec, except_mapError_ok, except_bind_ok, decode_name_to_proto, hrange,
    if_false, decode_protocol_to_proto, hport', except_pure_eq]

/-! ### Reading -/

/-- What a read loop leaves: the buffer's bytes followed by the unread chunks are the bytes it
    started from, the unread chunks stay non-empty, the capacity does not shrink, the loop
    succeeds iff the buffer reached `n` bytes, and it fails only at the end of the stream. -/
structure Filled (n : Nat) (buf : BytesMut) (io : List (List UInt8))
    (r : Bool × BytesMut × List (List UInt8)) : Prop where
  bytes_eq : r.2.1.bytes ++ r.2.2.flatten = buf.bytes ++ io.flatten
  nonempty : [] ∉ r.2.2
  cap_le : buf.cap ≤ r.2.1.cap
  filled_iff : r.1 = true ↔ n ≤ r.2.1.len
  eof : r.1 = false → r.2.2 = []

/-- **The read loop.**  Reading chunk by chunk keeps every byte, in order. -/
theorem fill_spec (n : Nat) : ∀ (io : List (List UInt8)) (buf : BytesMut), [] ∉ io →
    Filled n buf io (fill n buf io)
  | [], buf, _ => ⟨rfl, List.not_mem_nil, le_rfl, by simp [fill], fun _ => rfl⟩
  | c :: cs, buf, hne => by
    have hc : c ≠ [] := fun h => hne (h ▸ List.mem_cons_self)
    have hcs : [] ∉ cs := fun h => hne (List.mem_cons_of_mem c h)
    by_cases hlt : buf.len < n
    · -- one more read, of a non-empty chunk
      have hrest := fill_spec n cs (buf.read c) hcs
      have heq : fill n buf (c :: cs) = fill n (buf.read c) cs := by
        simp [fill, hlt, hc]
      rw [heq]
      refine ⟨?_, hrest.nonempty, le_trans (le_max_left _ _) hrest.cap_le, hrest.filled_iff,
        hrest.eof⟩
      rw [hrest.bytes_eq]
      simp [BytesMut.read]
    · have heq : fill n buf (c :: cs) = (true, buf, c :: cs) := by simp [fill, hlt]
      rw [heq]
      exact ⟨rfl, hne, le_rfl, by simpa using Nat.not_lt.mp hlt, fun h => by cases h⟩

/-- With enough bytes in the buffer and the stream, the read loop fills the buffer. -/
theorem Filled.eq_true {n : Nat} {buf : BytesMut} {io : List (List UInt8)}
    {r : Bool × BytesMut × List (List UInt8)} (hr : Filled n buf io r)
    (h : n ≤ buf.len + io.flatten.length) : r.1 = true := by
  cases hb : r.1 with
  | true => rfl
  | false =>
    -- at the end of the stream the buffer holds everything
    have hio := hr.eof hb
    have hlen : r.2.1.len = buf.len + io.flatten.length := by
      have := congrArg List.length hr.bytes_eq
      simpa [hio, BytesMut.len] using this
    have := hr.filled_iff.mpr (by omega)
    rw [hb] at this
    cases this

theorem take_eq_of_append_eq {α : Type} {a b p q : List α} (h : a ++ b = p ++ q)
    (hlen : p.length ≤ a.length) : a.take p.length = p := by
  have := congrArg (List.take p.length) h
  rwa [List.take_append_of_le_length hlen, List.take_left] at this

theorem drop_append_eq_of_append_eq {α : Type} {a b p q : List α} (h : a ++ b = p ++ q)
    (hlen : p.length ≤ a.length) : a.drop p.length ++ b = q := by
  have := congrArg (List.drop p.length) h
  rwa [List.drop_append_of_le_length hlen, List.drop_left] at this

theorem length_PREFACE : PREFACE.length = 23 := by decide

/-- The path of `read_prefaced` through a header whose message arrives. -/
theorem read_prefaced_eq_decode (proto_decode : List UInt8 → Except String proto.Header)
    {io io₁ io₂ : List (List UInt8)} {buf buf₁ buf₂ : BytesMut} {len : Nat}
    (h₁ : fill PREFACE_AND_SIZE_LEN buf io = (true, buf₁, io₁))
    (hpre : buf₁.bytes.take PREFACE.length = PREFACE)
    (hlen : beU32 (buf₁.bytes.drop PREFACE.length) = len)
    (hcap : len ≤ ((buf₁.advance PREFACE.length).advance 4).cap + PREFACE_AND_SIZE_LEN)
    (h₂ : fill len (((buf₁.advance PREFACE.length).advance 4).reserve len) io₁ =
      (true, buf₂, io₂)) :
    readPrefaced proto_decode io buf =
      (decode proto_decode (buf₂.bytes.take len), ⟨buf₂.bytes.drop len, buf₂.cap - len⟩, io₂) := by
  have hget : (buf₁.advance PREFACE.length).getU32 =
      (len, (buf₁.advance PREFACE.length).advance 4) := by
    rw [BytesMut.getU32, ← hlen]
    rfl
  unfold readPrefaced
  rw [h₁]
  simp only [hpre, ne_eq, not_true_eq_false, if_false, hget]
  rw [if_neg (Nat.not_lt.mpr hcap), h₂]
  rfl

/-- The path of `read_prefaced` through a stream that does not start with the preface. -/
theorem read_prefaced_eq_none (proto_decode : List UInt8 → Except String proto.Header)
    {io io₁ : List (List UInt8)} {buf buf₁ : BytesMut}
    (h₁ : fill PREFACE_AND_SIZE_LEN buf io = (true, buf₁, io₁))
    (hpre : buf₁.bytes.take PREFACE.length ≠ PREFACE) :
    readPrefaced proto_decode io buf = (.ok none, buf₁, io₁) := by
  unfold readPrefaced
  rw [h₁]
  exact if_pos hpre

theorem PREFACE_AND_SIZE_LEN_eq : PREFACE_AND_SIZE_LEN = 27 := by
  rw [PREFACE_AND_SIZE_LEN, length_PREFACE]

/-- `encode_prefaced` never fails: a header's message is far below `u32::MAX` bytes. -/
theorem encode_prefaced_eq (h : TransportHeader) :
    encodePrefaced h =
      .ok (PREFACE ++ putU32 (encodeHeader h.toProto).length ++ encodeHeader h.toProto) := by
  have := length_encode_header_le h
  rw [encodePrefaced, if_neg (by rw [U32_MAX]; omega)]

/-- **Reading an encoded header.**  Over every split into reads of an encoded header followed by
    `r`, `read_prefaced` on a fresh 64 KiB buffer returns the header and leaves `r` between the
    buffer and the unread chunks. -/
theorem read_prefaced_encoded (proto_decode : List UInt8 → Except String proto.Header)
    (h : TransportHeader) (hport : h.port ≠ 0)
    (hdec : proto_decode (encodeHeader h.toProto) = .ok h.toProto) (r : List UInt8)
    (io : ReadStream)
    (hio : io.chunks.flatten =
      PREFACE ++ putU32 (encodeHeader h.toProto).length ++ encodeHeader h.toProto ++ r) :
    ∃ buf rest, readPrefaced proto_decode io.chunks (.withCapacity (1024 * 64)) =
      (.ok (some h), buf, rest) ∧ buf.bytes ++ rest.flatten = r := by
  set enc := encodeHeader h.toProto with henc
  have henc_len : enc.length ≤ 288 := length_encode_header_le h
  have h23 := length_PREFACE
  have h27 := PREFACE_AND_SIZE_LEN_eq
  -- the first loop reads the preface and the length
  have hf₁ := fill_spec PREFACE_AND_SIZE_LEN io.chunks (.withCapacity (1024 * 64)) io.nonempty
  generalize hr₁ : fill PREFACE_AND_SIZE_LEN (.withCapacity (1024 * 64)) io.chunks = r₁ at hf₁
  obtain ⟨b₁, buf₁, io₁⟩ := r₁
  have hb₁ : b₁ = true := hf₁.eq_true (by
    simp only [hio, h27, BytesMut.withCapacity, BytesMut.len, List.length_append, h23,
      length_put_u32, List.length_nil]
    omega)
  subst hb₁
  have hbytes₁ : buf₁.bytes ++ io₁.flatten = PREFACE ++ (putU32 enc.length ++ (enc ++ r)) := by
    have := hf₁.bytes_eq
    dsimp only at this
    rw [this, hio]
    simp [BytesMut.withCapacity]
  have hlen₁ : 27 ≤ buf₁.len := h27 ▸ hf₁.filled_iff.mp rfl
  have hlen₁' : PREFACE.length ≤ buf₁.bytes.length := by
    rw [h23]
    exact le_trans (by decide) hlen₁
  have hpre : buf₁.bytes.take PREFACE.length = PREFACE := take_eq_of_append_eq hbytes₁ hlen₁'
  have hrest₁ : buf₁.bytes.drop PREFACE.length ++ io₁.flatten = putU32 enc.length ++ (enc ++ r) :=
    drop_append_eq_of_append_eq hbytes₁ hlen₁'
  -- then the message's length
  have h4 : (putU32 enc.length).length ≤ (buf₁.bytes.drop PREFACE.length).length := by
    simp only [BytesMut.len] at hlen₁
    simp only [length_put_u32, List.length_drop, h23]
    omega
  have hlen : beU32 (buf₁.bytes.drop PREFACE.length) = enc.length := by
    rw [← List.take_append_drop 4 (buf₁.bytes.drop PREFACE.length), ← length_put_u32 enc.length,
      take_eq_of_append_eq hrest₁ h4]
    exact be_u32_put_u32_append (by omega) _
  -- which fits the buffer's capacity
  have hcap : enc.length ≤ ((buf₁.advance PREFACE.length).advance 4).cap + PREFACE_AND_SIZE_LEN := by
    have := hf₁.cap_le
    simp only [BytesMut.withCapacity] at this
    simp only [BytesMut.advance, h27]
    omega
  -- the second loop reads the message
  have hbytes' : (((buf₁.advance PREFACE.length).advance 4).reserve enc.length).bytes ++
      io₁.flatten = enc ++ r := by
    have := drop_append_eq_of_append_eq hrest₁ h4
    simpa [BytesMut.reserve, BytesMut.advance, List.drop_drop, length_put_u32] using this
  have hf₂ := fill_spec enc.length io₁ (((buf₁.advance PREFACE.length).advance 4).reserve enc.length)
    hf₁.nonempty
  generalize hr₂ : fill enc.length (((buf₁.advance PREFACE.length).advance 4).reserve enc.length)
    io₁ = r₂ at hf₂
  obtain ⟨b₂, buf₂, io₂⟩ := r₂
  have hb₂ : b₂ = true := hf₂.eq_true (by
    have := congrArg List.length hbytes'
    simp only [List.length_append] at this
    simp only [BytesMut.len]
    omega)
  subst hb₂
  have hbytes₂ : buf₂.bytes ++ io₂.flatten = enc ++ r := by
    have := hf₂.bytes_eq
    dsimp only at this
    rw [this, hbytes']
  have hlen₂ : enc.length ≤ buf₂.bytes.length := hf₂.filled_iff.mp rfl
  refine ⟨⟨buf₂.bytes.drop enc.length, buf₂.cap - enc.length⟩, io₂, ?_,
    drop_append_eq_of_append_eq hbytes₂ hlen₂⟩
  rw [read_prefaced_eq_decode proto_decode hr₁ hpre hlen hcap hr₂,
    take_eq_of_append_eq hbytes₂ hlen₂, decode_to_proto proto_decode h hport hdec]

/-- **A stream without the preface** of at least 27 bytes is left as it was: `None`, with every
    byte read still in the buffer, in front of the unread chunks. -/
theorem read_prefaced_no_preface (proto_decode : List UInt8 → Except String proto.Header)
    (io : ReadStream) (hlen : PREFACE_AND_SIZE_LEN ≤ io.chunks.flatten.length)
    (hpre : ¬ PREFACE <+: io.chunks.flatten) :
    ∃ buf rest, readPrefaced proto_decode io.chunks (.withCapacity (1024 * 64)) =
      (.ok none, buf, rest) ∧ buf.bytes ++ rest.flatten = io.chunks.flatten := by
  have hf₁ := fill_spec PREFACE_AND_SIZE_LEN io.chunks (.withCapacity (1024 * 64)) io.nonempty
  generalize hr₁ : fill PREFACE_AND_SIZE_LEN (.withCapacity (1024 * 64)) io.chunks = r₁ at hf₁
  obtain ⟨b₁, buf₁, io₁⟩ := r₁
  have hb₁ : b₁ = true := hf₁.eq_true (by simpa [BytesMut.withCapacity, BytesMut.len] using hlen)
  subst hb₁
  have hbytes₁ : buf₁.bytes ++ io₁.flatten = io.chunks.flatten := by
    have := hf₁.bytes_eq
    dsimp only at this
    rw [this]
    rfl
  -- the buffer's first bytes are the stream's, which do not start with the preface
  have hne : buf₁.bytes.take PREFACE.length ≠ PREFACE := by
    intro heq
    apply hpre
    rw [← heq, ← hbytes₁]
    exact (List.take_prefix _ _).trans (List.prefix_append _ _)
  exact ⟨buf₁, io₁, read_prefaced_eq_none proto_decode hr₁ hne, hbytes₁⟩

/-- What reading an encoded header promises: `encode_prefaced` succeeds, and over every split of
    its bytes followed by any `r` into reads, `read_prefaced` on a fresh 64 KiB buffer returns the
    header and leaves `r` between the buffer and the unread chunks. -/
def RoundTrips (proto_decode : List UInt8 → Except String proto.Header) (h : TransportHeader) :
    Prop :=
  ∃ bytes, encodePrefaced h = .ok bytes ∧
    ∀ (r : List UInt8) (io : ReadStream), io.chunks.flatten = bytes ++ r →
      ∃ buf rest, readPrefaced proto_decode io.chunks (.withCapacity (1024 * 64)) =
        (.ok (some h), buf, rest) ∧ buf.bytes ++ rest.flatten = r

/-- **Transport-header framing.**  Every header with a non-zero port round-trips over every split
    into reads, given prost's round trip on its message; and every stream of at least 27 bytes
    that does not start with the preface is returned as it was. -/
theorem transport_header_framing (proto_decode : List UInt8 → Except String proto.Header) :
    (∀ h : TransportHeader, h.port ≠ 0 →
      proto_decode (encodeHeader h.toProto) = .ok h.toProto → RoundTrips proto_decode h) ∧
    ∀ io : ReadStream, 27 ≤ io.chunks.flatten.length → ¬ PREFACE <+: io.chunks.flatten →
      ∃ buf rest, readPrefaced proto_decode io.chunks (.withCapacity (1024 * 64)) =
        (.ok none, buf, rest) ∧ buf.bytes ++ rest.flatten = io.chunks.flatten := by
  constructor
  · intro h hport hdec
    refine ⟨_, encode_prefaced_eq h, fun r io hio => ?_⟩
    exact read_prefaced_encoded proto_decode h hport hdec r io hio
  · intro io hlen hpre
    exact read_prefaced_no_preface proto_decode io (PREFACE_AND_SIZE_LEN_eq ▸ hlen) hpre

/-- The header of the source's round-trip test: port 4040, `foo.bar.example.com`, HTTP/2. -/
def testHeader : TransportHeader :=
  ⟨4040, some ⟨"foo.bar.example.com", by decide, by decide⟩, some .http2⟩

theorem transport_header_framing_test_header :
    RoundTrips (fun _ => .ok testHeader.toProto) testHeader :=
  (transport_header_framing (fun _ => .ok testHeader.toProto)).1 testHeader (by decide) rfl

/-- **The server passes on what follows the header.**  `TransportHeaderServer::call` hands the
    inner service the header and, in front of the unread chunks, exactly the bytes after it. -/
theorem call_encoded (proto_decode : List UInt8 → Except String proto.Header)
    (h : TransportHeader) (hport : h.port ≠ 0)
    (hdec : proto_decode (encodeHeader h.toProto) = .ok h.toProto) (r : List UInt8)
    (io : ReadStream)
    (hio : io.chunks.flatten =
      PREFACE ++ putU32 (encodeHeader h.toProto).length ++ encodeHeader h.toProto ++ r) :
    ∃ pre rest, call proto_decode io.chunks = .ok (h, pre, rest) ∧ pre ++ rest.flatten = r := by
  obtain ⟨buf, rest, hread, hleft⟩ := read_prefaced_encoded proto_decode h hport hdec r io hio
  refine ⟨buf.bytes, rest, ?_, hleft⟩
  rw [call, hread]

/-- The test header followed by two bytes, in one chunk. -/
theorem call_encoded_test_header :
    ∃ pre rest, call (fun _ => .ok testHeader.toProto)
        [PREFACE ++ putU32 (encodeHeader testHeader.toProto).length ++
          encodeHeader testHeader.toProto ++ [1, 2]] = .ok (testHeader, pre, rest) ∧
      pre ++ rest.flatten = [1, 2] :=
  call_encoded (fun _ => .ok testHeader.toProto) testHeader (by decide) rfl [1, 2]
    ⟨[PREFACE ++ putU32 (encodeHeader testHeader.toProto).length ++
      encodeHeader testHeader.toProto ++ [1, 2]],
      fun h => List.append_ne_nil_of_right_ne_nil _ (List.cons_ne_nil 1 [2])
        (List.mem_singleton.mp h).symm⟩ List.flatten_singleton

end LinkerdProxy.Transport
