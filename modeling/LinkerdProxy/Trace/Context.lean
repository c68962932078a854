import LinkerdProxy.Lib.Text

namespace LinkerdProxy.Trace

/-!
# Trace-context propagation (`linkerd_trace_context::propagation`)

A request's trace context is read from a W3C `traceparent` header (`00-<trace>-<span>-<flags>`,
in hexadecimal) or from a binary `grpc-trace-bin` header (a version byte, then fields: an id
byte and a fixed-length value), and written back with a new span id in the same format.  Both
readers take untrusted input; a failed `expect` or an index out of bounds panics, which the
model gives as an error carrying the panic's message.

* `parse_grpc_trace_context_fields_total` — the binary reader never panics, and its field loop
  ends on every input;
* `grpc_round_trip`, `w3c_round_trip` — each reader gives back what its writer wrote (the W3C
  reader pads a trace id to 16 bytes);
* `parse_context_empty_flags_panics` — a `traceparent` whose flags field is empty passes every
  check and panics at `decoded[0]`.
-/

/-- Which format a context was read from (`Propagation`). -/
inductive Propagation where
  | b3_http
  | b3_grpc
  | w3c_http
  deriving DecidableEq, Repr

/-- `TraceContext`: ids are byte strings (`Id(Vec<u8>)`), flags one byte (`Flags(u8)`). -/
structure TraceContext where
  propagation : Propagation
  trace_id : List UInt8
  parent_id : List UInt8
  flags : UInt8
  deriving DecidableEq, Repr

/-- The message of the panic of indexing an empty slice at `0`. -/
def INDEX_PANIC : String := "index out of bounds: the len is 0 but the index is 0"

/-- `xs[0]`: the first element, or a panic. -/
def index0 (xs : List UInt8) : Except String UInt8 :=
  match xs with
  | x :: _ => .ok x
  | [] => .error INDEX_PANIC

/-! ### W3C `traceparent` -/

def VERSION_00 : List Char := ['0', '0']

/-- `decode_id_with_padding`: the hex decoded, zero bytes put in front up to `pad_to`. -/
def decodeIdWithPadding (value : List Char) (pad_to : Nat) : Option (List UInt8) :=
  (Hex.decode value).map fun data =>
    if data.length < pad_to then List.replicate (pad_to - data.length) 0 ++ data else data

/-- `parse_header_value`: the id before the next `-`, refused when it is all `0` digits (the
    empty id too), then decoded and padded; with the text after the `-`. -/
def parseHeaderValue (next_header_value : List Char) (pad_to : Nat) :
    Option (List UInt8 × List Char) :=
  match splitOnce '-' next_header_value with
  | none => none
  | some (id, rest) =>
    if id.all (· = '0') then none
    else (decodeIdWithPadding id pad_to).map fun data => (data, rest)

/-- `parse_context`: the version `00`, the trace id padded to 16 bytes, the parent id padded to
    8 bytes, then the rest decoded as the flags, of which the first byte is taken. -/
def parseContext (header_value : List Char) : Except String (Option TraceContext) :=
  match splitOnce '-' header_value with
  | none => .ok none
  | some (version, rest) =>
    if version ≠ VERSION_00 then .ok none
    else match parseHeaderValue rest 16 with
      | none => .ok none
      | some (trace_id, rest) =>
        match parseHeaderValue rest 8 with
        | none => .ok none
        | some (parent_id, rest) =>
          match Hex.decode rest with
          | none => .ok none
          | some decoded =>
            -- `Flags(decoded[0])`
            match index0 decoded with
            | .error msg => .error msg
            | .ok flags => .ok (some ⟨.w3c_http, trace_id, parent_id, flags⟩)

/-- The header value `increment_http_span_id` writes for a new span id. -/
def w3cHeader (context : TraceContext) (span_id : List UInt8) : List Char :=
  VERSION_00 ++ '-' :: Hex.encode context.trace_id ++ '-' :: Hex.encode span_id ++
    '-' :: Hex.encode [context.flags]

/-! ### Binary `grpc-trace-bin` -/

def GRPC_TRACE_FIELD_TRACE_ID : UInt8 := 0
def GRPC_TRACE_FIELD_SPAN_ID : UInt8 := 1
def GRPC_TRACE_FIELD_TRACE_OPTIONS : UInt8 := 2

/-- Why a field could not be read: `InsufficientBytes`, or `UnknownFieldId`. -/
inductive FieldError where
  | insufficient_bytes
  | unknown_field_id (id : UInt8)
  deriving DecidableEq, Repr

/-- `try_split_to`: the first `n` bytes and the rest, if there are `n`. -/
def trySplitTo (buf : List UInt8) (n : Nat) : Option (List UInt8 × List UInt8) :=
  if buf.length ≥ n then some (buf.take n, buf.drop n) else none

/-- `parse_grpc_trace_context_field`: the field id, then its value; the buffer left over and
    the context with the field set.  The id is `try_split_to(buf, 1)?[0]`. -/
def parseGrpcTraceContextField (buf : List UInt8) (context : TraceContext) :
    Except String (Except FieldError (List UInt8 × TraceContext)) :=
  match trySplitTo buf 1 with
  | none => .ok (.error .insufficient_bytes)
  | some (head, buf) =>
    match index0 head with
    | .error msg => .error msg
    | .ok field_id =>
      if field_id = GRPC_TRACE_FIELD_SPAN_ID then
        match trySplitTo buf 8 with
        | none => .ok (.error .insufficient_bytes)
        | some (id, buf) => .ok (.ok (buf, { context with parent_id := id }))
      else if field_id = GRPC_TRACE_FIELD_TRACE_ID then
        match trySplitTo buf 16 with
        | none => .ok (.error .insufficient_bytes)
        | some (id, buf) => .ok (.ok (buf, { context with trace_id := id }))
      else if field_id = GRPC_TRACE_FIELD_TRACE_OPTIONS then
        match trySplitTo buf 1 with
        | none => .ok (.error .insufficient_bytes)
        | some (flags, buf) =>
          -- `Flags::try_from`: the first byte, or `InsufficientBytes`
          match flags.head? with
          | none => .ok (.error .insufficient_bytes)
          | some f => .ok (.ok (buf, { context with flags := f }))
      else .ok (.error (.unknown_field_id field_id))

theorem try_split_to_some {buf a b : List UInt8} {n : Nat}
    (h : trySplitTo buf n = some (a, b)) :
    a = buf.take n ∧ b = buf.drop n ∧ n ≤ buf.length := by
  unfold trySplitTo at h
  split at h
  · cases h
    exact ⟨rfl, rfl, by assumption⟩
  · cases h

/-- What a value of `n` bytes after the field id leaves. -/
theorem drop_shorter {buf : List UInt8} (h1 : 1 ≤ buf.length) (n : Nat) :
    ((buf.drop 1).drop n).length < buf.length := by
  simp only [List.length_drop]
  omega

/-- A field read leaves less of the buffer than it was given: the id byte at least. -/
theorem parse_field_shorter {buf buf' : List UInt8} {context context' : TraceContext}
    (h : parseGrpcTraceContextField buf context = .ok (.ok (buf', context'))) :
    buf'.length < buf.length := by
  unfold parseGrpcTraceContextField at h
  split at h
  · cases h
  · next head rest hid =>
    obtain ⟨-, rfl, h1⟩ := try_split_to_some hid
    split at h
    · cases h
    · -- the value of each known field is split off after the id
      split at h
      · split at h
        · cases h
        · next id buf2 hv =>
          obtain ⟨-, rfl, -⟩ := try_split_to_some hv
          cases h
          exact drop_shorter h1 _
      · split at h
        · split at h
          · cases h
          · next id buf2 hv =>
            obtain ⟨-, rfl, -⟩ := try_split_to_some hv
            cases h
            exact drop_shorter h1 _
        · split at h
          · split at h
            · cases h
            · next flags buf2 hv =>
              obtain ⟨-, rfl, -⟩ := try_split_to_some hv
              split at h
              · cases h
              · cases h
                exact drop_shorter h1 _
          · cases h

set_option linter.unusedVariables false in
/-- The loop of `parse_grpc_trace_context_fields`: fields while bytes are left; an unknown field
    id ends it with what was read, any other error refuses the header. -/
def fieldsLoop (buf : List UInt8) (context : TraceContext) :
    Except String (Option TraceContext) :=
  if buf = [] then .ok (some context)
  else match h : parseGrpcTraceContextField buf context with
    | .error msg => .error msg
    | .ok (.ok (buf', context')) => fieldsLoop buf' context'
    | .ok (.error (.unknown_field_id _)) => .ok (some context)
    | .ok (.error .insufficient_bytes) => .ok none
termination_by buf.length
decreasing_by exact parse_field_shorter h

/-- `parse_grpc_trace_context_fields`: the version byte, then the fields, from a context with
    empty ids and zero flags. -/
def parseGrpcTraceContextFields (buf : List UInt8) : Except String (Option TraceContext) :=
  match trySplitTo buf 1 with
  | none => .ok none
  | some (_, buf) => fieldsLoop buf ⟨.b3_grpc, [], [], 0⟩

/-- The bytes `increment_grpc_span_id` writes (before base64) for a new span id. -/
def grpcTraceBytes (context : TraceContext) (span_id : List UInt8) : List UInt8 :=
  [0] ++ GRPC_TRACE_FIELD_TRACE_ID :: context.trace_id ++ GRPC_TRACE_FIELD_SPAN_ID :: span_id ++
    [GRPC_TRACE_FIELD_TRACE_OPTIONS, context.flags]

/-! ### The binary reader never panics -/

theorem try_split_to_append (xs ys : List UInt8) {n : Nat} (h : xs.length = n) :
    trySplitTo (xs ++ ys) n = some (xs, ys) := by
  subst h
  simp [trySplitTo]

/-- The field id is split off as one byte, so indexing it never panics. -/
theorem parse_field_ok (buf : List UInt8) (context : TraceContext) :
    ∃ r, parseGrpcTraceContextField buf context = .ok r := by
  unfold parseGrpcTraceContextField
  split
  · exact ⟨_, rfl⟩
  · next head rest hid =>
    obtain ⟨rfl, -, h1⟩ := try_split_to_some hid
    obtain ⟨b, tl, rfl⟩ := List.exists_cons_of_length_pos h1
    simp only [List.take_succ_cons, List.take_zero, index0]
    -- past the id byte, every branch answers `ok`
    repeat' split
    all_goals exact ⟨_, rfl⟩

/-- The field loop ends on every buffer, and never panics. -/
theorem fields_loop_ok (buf : List UInt8) (context : TraceContext) :
    ∃ r, fieldsLoop buf context = .ok r := by
  induction buf, context using fieldsLoop.induct with
  | case1 context => exact ⟨some context, by rw [fieldsLoop, if_pos rfl]⟩
  | case2 buf context hb msg h =>
    obtain ⟨r, hr⟩ := parse_field_ok buf context
    rw [hr] at h
    cases h
  | case3 buf context hb buf' context' h ih =>
    obtain ⟨r, hr⟩ := ih
    exact ⟨r, by rw [fieldsLoop, if_neg hb]; split <;> simp_all⟩
  | case4 buf context hb id h =>
    exact ⟨some context, by rw [fieldsLoop, if_neg hb]; split <;> simp_all⟩
  | case5 buf context hb h => exact ⟨none, by rw [fieldsLoop, if_neg hb]; split <;> simp_all⟩

/-- **The binary reader is total.**  On every byte string `parse_grpc_trace_context_fields`
    ends, without panicking. -/
theorem parse_grpc_trace_context_fields_total (buf : List UInt8) :
    ∃ r, parseGrpcTraceContextFields buf = .ok r := by
  unfold parseGrpcTraceContextFields
  split
  · exact ⟨_, rfl⟩
  · exact fields_loop_ok _ _

/-! ### The readers invert the writers -/

theorem try_split_to_cons (b : UInt8) (rest : List UInt8) :
    trySplitTo (b :: rest) 1 = some ([b], rest) := by
  simp [trySplitTo]

theorem parse_field_trace_id (t rest : List UInt8) (ht : t.length = 16) (context : TraceContext) :
    parseGrpcTraceContextField (GRPC_TRACE_FIELD_TRACE_ID :: (t ++ rest)) context =
      .ok (.ok (rest, { context with trace_id := t })) := by
  rw [parseGrpcTraceContextField, try_split_to_cons]
  simp only [index0]
  rw [if_neg (by decide), if_pos trivial, try_split_to_append t rest ht]

theorem parse_field_span_id (s rest : List UInt8) (hs : s.length = 8) (context : TraceContext) :
    parseGrpcTraceContextField (GRPC_TRACE_FIELD_SPAN_ID :: (s ++ rest)) context =
      .ok (.ok (rest, { context with parent_id := s })) := by
  rw [parseGrpcTraceContextField, try_split_to_cons]
  simp only [index0]
  rw [if_pos trivial, try_split_to_append s rest hs]

theorem parse_field_options (f : UInt8) (rest : List UInt8) (context : TraceContext) :
    parseGrpcTraceContextField (GRPC_TRACE_FIELD_TRACE_OPTIONS :: f :: rest) context =
      .ok (.ok (rest, { context with flags := f })) := by
  rw [parseGrpcTraceContextField, try_split_to_cons]
  simp only [index0]
  rw [if_neg (by decide), if_neg (by decide), if_pos trivial, try_split_to_cons]
  rfl

/-- A field read, then the loop goes on with what is left. -/
theorem fields_loop_field {buf buf' : List UInt8} {context context' : TraceContext}
    (h : parseGrpcTraceContextField buf context = .ok (.ok (buf', context'))) :
    fieldsLoop buf context = fieldsLoop buf' context' := by
  have hb : buf ≠ [] := by
    rintro rfl
    simp [parseGrpcTraceContextField, trySplitTo] at h
  rw [fieldsLoop, if_neg hb]
  split <;> simp_all

/-- **The binary round trip.**  The bytes `increment_grpc_span_id` writes for a 16-byte trace
    id and an 8-byte span id read back as those ids and the flags. -/
theorem grpc_round_trip (context : TraceContext) (span_id : List UInt8)
    (ht : context.trace_id.length = 16) (hs : span_id.length = 8) :
    parseGrpcTraceContextFields (grpcTraceBytes context span_id) =
      .ok (some ⟨.b3_grpc, context.trace_id, span_id, context.flags⟩) := by
  have hbytes : grpcTraceBytes context span_id = 0 ::
      GRPC_TRACE_FIELD_TRACE_ID :: (context.trace_id ++ GRPC_TRACE_FIELD_SPAN_ID ::
        (span_id ++ [GRPC_TRACE_FIELD_TRACE_OPTIONS, context.flags])) := by
    simp [grpcTraceBytes]
  rw [parseGrpcTraceContextFields, hbytes, try_split_to_cons]
  -- the three fields in the order they were written, then nothing is left
  simp only
  rw [fields_loop_field (parse_field_trace_id _ _ ht _),
    fields_loop_field (parse_field_span_id _ _ hs _),
    fields_loop_field (parse_field_options _ _ _), fieldsLoop, if_pos rfl]

/-- A trace id of sixteen ones and a span id of eight twos. -/
theorem grpc_round_trip_ones :
    parseGrpcTraceContextFields
        (grpcTraceBytes ⟨.b3_grpc, List.replicate 16 1, [], 1⟩ (List.replicate 8 2)) =
      .ok (some ⟨.b3_grpc, List.replicate 16 1, List.replicate 8 2, 1⟩) :=
  grpc_round_trip ⟨.b3_grpc, List.replicate 16 1, [], 1⟩ (List.replicate 8 2) rfl rfl

/-- The padding `decode_id_with_padding` puts in front of a short id. -/
def padded (pad_to : Nat) (data : List UInt8) : List UInt8 :=
  if data.length < pad_to then List.replicate (pad_to - data.length) 0 ++ data else data

/-- An id the writer encoded, not all zero, reads back padded, with the text after its `-`. -/
theorem parse_header_value_encode (t : List UInt8) (ht : ∃ b ∈ t, b ≠ 0) (rest : List Char)
    (pad_to : Nat) :
    parseHeaderValue (Hex.encode t ++ '-' :: rest) pad_to = some (padded pad_to t, rest) := by
  have hzero : (Hex.encode t).all (· = '0') = false := by
    rw [Bool.eq_false_iff]
    intro h
    rw [List.all_eq_true] at h
    obtain ⟨b, hb, hne⟩ := ht
    exact hne ((Hex.encode_all_zero_iff t).1 (fun c hc => by simpa using h c hc) b hb)
  simp [parseHeaderValue, split_once_append '-' (Hex.sep_not_mem_encode t), hzero,
    decodeIdWithPadding, Hex.decode_encode, padded]

theorem split_once_version (rest : List Char) :
    splitOnce '-' (VERSION_00 ++ '-' :: rest) = some (VERSION_00, rest) :=
  split_once_append '-' (by decide) rest

/-- **The W3C round trip.**  The header `increment_http_span_id` writes reads back as the trace
    id, padded to 16 bytes, the span id, padded to 8, and the flags, for ids that are not all
    zero. -/
theorem w3c_round_trip (context : TraceContext) (span_id : List UInt8)
    (ht : ∃ b ∈ context.trace_id, b ≠ 0) (hs : ∃ b ∈ span_id, b ≠ 0) :
    parseContext (w3cHeader context span_id) =
      .ok (some ⟨.w3c_http, padded 16 context.trace_id, padded 8 span_id, context.flags⟩) := by
  have hheader : w3cHeader context span_id = VERSION_00 ++ '-' :: (Hex.encode context.trace_id ++
      '-' :: (Hex.encode span_id ++ '-' :: Hex.encode [context.flags])) := by
    simp [w3cHeader]
  rw [parseContext, hheader, split_once_version]
  simp only [ne_eq, not_true_eq_false, if_false]
  rw [parse_header_value_encode _ ht]
  dsimp only
  rw [parse_header_value_encode _ hs]
  dsimp only
  rw [Hex.decode_encode]
  rfl

/-- A one-byte trace id and a one-byte span id, padded on the way back. -/
theorem w3c_round_trip_short_ids :
    parseContext (w3cHeader ⟨.w3c_http, [7], [], 1⟩ [9]) =
      .ok (some ⟨.w3c_http, padded 16 [7], padded 8 [9], 1⟩) :=
  w3c_round_trip ⟨.w3c_http, [7], [], 1⟩ [9] ⟨7, by decide, by decide⟩ ⟨9, by decide, by decide⟩

/-- **An empty flags field panics.**  A `traceparent` with the version `00`, any trace and parent
    ids that are not all zero, and nothing after the last `-` passes every check of
    `parse_context`; `hex::decode("")` is the empty vector, and `decoded[0]` panics. -/
theorem parse_context_empty_flags_panics (t s : List UInt8) (ht : ∃ b ∈ t, b ≠ 0)
    (hs : ∃ b ∈ s, b ≠ 0) :
    parseContext (VERSION_00 ++ '-' :: Hex.encode t ++ '-' :: Hex.encode s ++ ['-']) =
      .error INDEX_PANIC := by
  have hheader : VERSION_00 ++ '-' :: Hex.encode t ++ '-' :: Hex.encode s ++ ['-'] =
      VERSION_00 ++ '-' :: (Hex.encode t ++ '-' :: (Hex.encode s ++ '-' :: [])) := by
    simp
  rw [hheader, parseContext, split_once_version]
  simp only [ne_eq, not_true_eq_false, if_false]
  rw [parse_header_value_encode _ ht]
  dsimp only
  rw [parse_header_value_encode _ hs]
  rfl

theorem parse_context_empty_flags_panics_one :
    (∃ b ∈ [(1 : UInt8)], b ≠ 0) ∧
      parseContext "00-01-01-".toList = .error INDEX_PANIC := by
  have h : ∃ b ∈ [(1 : UInt8)], b ≠ 0 := ⟨1, List.mem_singleton_self 1, by decide⟩
  exact ⟨h, parse_context_empty_flags_panics [1] [1] h h⟩

end LinkerdProxy.Trace
