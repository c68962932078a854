import LinkerdProxy.Lib.Reader

namespace LinkerdProxy.Tls

open Reader

/-!
# Reading the SNI of a TLS ClientHello (`tls::server::client_hello`)

`parse_sni` looks at the start of a connection and decides whether it is a TLS ClientHello and
which server name it asks for: `Ok(Some(name))`, `Ok(None)` when it is not one (or carries no
usable name), or `Err(Incomplete)` when more bytes are needed.  The server's `detect_sni` calls it
on a growing buffer until it gets an answer or the buffer is full.

The record is read as nested `u16`-length vectors.  Each vector's bytes are extracted as a slice
and read with `read_all`, which fails with `EndOfInput` when its reader stops early; a reader that
rejects its input with an early `Ok(None)` stops early, so the rejection surfaces as `Incomplete`.

* `extensions_fuel` — the loop over the extensions, bounded by the input's length, never runs
  out of rounds;
* `parse_sni_decides_on_seen` — a verdict survives more input;
* `parse_sni_record` — once the first record is complete, the verdict is a function of its body.
-/

abbrev Bytes := List UInt8

/-- `read_u16`: a big-endian `u16` (`u16::from(hi) << 8 | u16::from(lo)`). -/
def readU16 : Reader UInt8 Nat := do
  let hi ← readByte
  let lo ← readByte
  pure (hi.toNat * 256 + lo.toNat)

/-- `read_vector`: a `u16` length and that many bytes, read by `f` to their end.  A vector longer
    than 8192 bytes is rejected before its bytes are read. -/
def readVector {α : Type} (f : Reader UInt8 (Option α)) : Reader UInt8 (Option α) := do
  let length ← readU16
  if length > 8192 then pure none
  else
    let r ← readBytes length
    lift (readAll r f)

/-- `skip_vector`: a `u16` vector whose contents are ignored; `false` when it was rejected. -/
def skipVector : Reader UInt8 Bool := do
  let r ← readVector (do skipToEnd; pure (some ()))
  pure r.isSome

/-- `skip_vector_u8`: a vector with a `u8` length, ignored. -/
def skipVectorU8 : Reader UInt8 Unit := do
  let length ← readByte
  skip length.toNat

/-- The `server_name` extension's value: a `server_name_list` whose first entry must be a
    `host_name`; the name is the rest of that entry's vector. -/
def serverName : Reader UInt8 (Option Bytes) :=
  readVector <| readVector do
    let name_type ← readByte
    if name_type ≠ 0 then pure none
    else readVector do
      let name ← readBytesToEnd
      pure (some name)

/-- The loop over the extensions (`while !input.at_end()`): other extensions are skipped, and the
    first `server_name` extension decides.  Each round reads at least four bytes, so the length
    of the input bounds the rounds (`extensions_fuel`). -/
def extensions : Nat → Reader UInt8 (Option Bytes)
  | 0 => pure none
  | fuel + 1 => do
    let done ← atEnd
    if done then pure none
    else
      let extension_type ← readU16
      if extension_type ≠ 0 then
        let _ ← skipVector
        extensions fuel
      else
        let r ← serverName
        skipToEnd
        pure r

/-- The `extensions` vector's reader, with as many rounds as it has bytes. -/
def sniExtension : Reader UInt8 (Option Bytes) := fun xs => extensions xs.length xs

/-- The ClientHello body: `legacy_version` 3.3, the random, the session id, the cipher suites,
    the compression methods, and the extensions. -/
def clientHello : Reader UInt8 (Option Bytes) := do
  let major ← readByte
  if major ≠ 0x03 then pure none
  else
    let minor ← readByte
    if minor ≠ 0x03 then pure none
    else
      skip 32
      skipVectorU8
      let cipher_suites ← skipVector
      if !cipher_suites then pure none
      else
        skipVectorU8
        readVector sniExtension

/-- The handshake message in the record: type `client_hello`, and a 24-bit length whose high
    byte must be zero, read as a `u16` vector. -/
def handshake : Reader UInt8 (Option Bytes) := do
  let handshake_type ← readByte
  if handshake_type ≠ 1 then pure none
  else
    let length_high ← readByte
    if length_high ≠ 0 then pure none
    else readVector clientHello

/-- `extract_sni`: the record header (content type `handshake`, version 3.1 or 3.3) and the
    record's body as a `u16` vector; anything after the first record is skipped. -/
def extractSni : Reader UInt8 (Option Bytes) := do
  let content_type ← readByte
  if content_type ≠ 22 then pure none
  else
    let major ← readByte
    if major ≠ 0x03 then pure none
    else
      let minor ← readByte
      if minor ≠ 0x01 ∧ minor ≠ 0x03 then pure none
      else
        let r ← readVector handshake
        skipToEnd
        pure r

/-- `Incomplete`: more input is needed. -/
structure Incomplete where
  deriving DecidableEq, Repr

section ParseSni

variable {N : Type} (parse_name : Bytes → Option N)

/-- `parse_sni`.  `parse_name` is `str::from_utf8` followed by `dns::Name`'s parser; a name that
    does not parse gives `Ok(None)`. -/
def parseSni (input : Bytes) : Except Incomplete (Option N) :=
  match readAll input (do let r ← extractSni; skipToEnd; pure r) with
  | .ok (some sni) =>
    match parse_name sni with
    | some sni => .ok (some sni)
    | none => .ok none
  | .ok none => .ok none
  | .error _ => .error ⟨⟩

/-! ### The loop over the extensions has fuel enough -/

theorem advances_read_u16 : Advances 2 readU16 :=
  advances_read_byte.bind fun _ => advances_read_byte.bind fun _ => advances_pure _

/-- A vector consumes at least its length field. -/
theorem advances_read_vector {α : Type} (f : Reader UInt8 (Option α)) :
    Advances 2 (readVector f) :=
  advances_read_u16.bind fun _ =>
    (advances_pure _).ite (((advances_read_bytes _).bind fun _ => advances_lift _).mono
      (Nat.zero_le _))

theorem advances_skip_vector : Advances 2 skipVector :=
  (advances_read_vector _).bind fun _ => advances_pure _

theorem extensions_nil (fuel : Nat) : extensions fuel [] = .ok (none, []) := by
  cases fuel <;> rfl

/-- One round of the loop on input that is not exhausted. -/
theorem extensions_succ_cons (fuel : Nat) (x : UInt8) (xs : Bytes) :
    extensions (fuel + 1) (x :: xs) = (do
      let extension_type ← readU16
      if extension_type ≠ 0 then
        let _ ← skipVector
        extensions fuel
      else
        let r ← serverName
        skipToEnd
        pure r) (x :: xs) := rfl

/-- **Enough fuel.**  Each round of the loop consumes at least four bytes, so any fuel of at least
    the input's length runs the loop to its own end: the bound of `sni_extension` changes
    nothing. -/
theorem extensions_fuel {n m : Nat} {xs : Bytes} (hn : xs.length ≤ n) (hm : xs.length ≤ m) :
    extensions n xs = extensions m xs := by
  induction n generalizing m xs with
  | zero =>
    rw [List.length_eq_zero_iff.mp (Nat.le_zero.mp hn), extensions_nil, extensions_nil]
  | succ k ih =>
    cases xs with
    | nil => rw [extensions_nil, extensions_nil]
    | cons x xs =>
      obtain ⟨j, rfl⟩ : ∃ j, m = j + 1 := ⟨m - 1, by simp at hm; omega⟩
      rw [extensions_succ_cons, extensions_succ_cons, bind_apply, bind_apply]
      cases htype : readU16 (x :: xs) with
      | error e => rfl
      | ok r =>
        obtain ⟨extension_type, rest⟩ := r
        have h1 := advances_read_u16 _ _ _ htype
        simp only
        split
        · -- another extension: its vector is skipped, and the loop goes on with less input
          rw [bind_apply, bind_apply]
          cases hskip : skipVector rest with
          | error e => rfl
          | ok r' =>
            obtain ⟨_, rest'⟩ := r'
            have h2 := advances_skip_vector _ _ _ hskip
            simp only [List.length_cons] at h1 hn hm
            exact ih (by omega) (by omega)
        · rfl

/-- Four bytes, with just enough fuel and with more. -/
theorem extensions_fuel_four_bytes : extensions 4 [0, 1, 0, 0] = extensions 10 [0, 1, 0, 0] :=
  extensions_fuel (by decide) (by decide)

/-! ### Verdicts survive more input -/

theorem stable_read_u16 : Stable readU16 :=
  stable_read_byte.bind fun _ => stable_read_byte.bind fun _ => stable_pure _

/-- A vector's reader only ever sees the vector's own bytes, so the vector is stable whatever
    its reader does. -/
theorem stable_read_vector {α : Type} (f : Reader UInt8 (Option α)) : Stable (readVector f) :=
  stable_read_u16.bind fun _ =>
    (stable_pure _).ite ((stable_read_bytes _).bind fun _ => stable_lift _)

/-- The record's verdict does not change with more input; only the final skip to the end
    depends on it. -/
theorem valueStable_extract_sni : ValueStable extractSni := by
  apply stable_read_byte.bind_valueStable
  intro content_type
  apply (stable_pure _).valueStable.ite
  apply stable_read_byte.bind_valueStable
  intro major
  apply (stable_pure _).valueStable.ite
  apply stable_read_byte.bind_valueStable
  intro minor
  apply (stable_pure _).valueStable.ite
  apply (stable_read_vector handshake).bind_valueStable
  intro r
  exact valueStable_skip_to_end_pure r

/-- `parse_sni` reads the verdict of `extract_sni`: the top-level reader skips to the end, so
    `read_all` never refuses it. -/
theorem parse_sni_congr {x x' : Bytes}
    (h : (extractSni x).map Prod.fst = (extractSni x').map Prod.fst) :
    parseSni parse_name x = parseSni parse_name x' := by
  unfold parseSni
  rw [read_all_of_skip_to_end, read_all_of_skip_to_end, h]

theorem extract_sni_of_parse_sni_ok {x : Bytes} {r : Option N}
    (h : parseSni parse_name x = .ok r) : ∃ a rest, extractSni x = .ok (a, rest) := by
  unfold parseSni at h
  rw [read_all_of_skip_to_end] at h
  cases hx : extractSni x with
  | error e =>
    rw [hx] at h
    cases h
  | ok v => exact ⟨v.1, v.2, rfl⟩

/-- **Prefix monotonicity.**  A verdict reached on a buffer is the verdict on every longer buffer,
    and a longer buffer that is still incomplete had an incomplete prefix. -/
theorem parse_sni_decides_on_seen (x y : Bytes) :
    (∀ r, parseSni parse_name x = .ok r → parseSni parse_name (x ++ y) = .ok r) ∧
    (parseSni parse_name (x ++ y) = .error ⟨⟩ → parseSni parse_name x = .error ⟨⟩) := by
  -- the verdict on `x` carries over to `x ++ y`
  have hext : ∀ r, parseSni parse_name x = .ok r → parseSni parse_name (x ++ y) = .ok r := by
    intro r hr
    obtain ⟨a, rest, hx⟩ := extract_sni_of_parse_sni_ok parse_name hr
    obtain ⟨rest', hxy⟩ := valueStable_extract_sni x a rest hx y
    rw [← hr]
    apply parse_sni_congr
    rw [hx, hxy]
    rfl
  refine ⟨hext, ?_⟩
  intro hxy
  cases hx : parseSni parse_name x with
  | error e => rfl
  | ok r =>
    rw [hext r hx] at hxy
    cases hxy

/-! ### A complete record decides -/

/-- The big-endian bytes of a `u16`. -/
def u16Bytes (n : Nat) : Bytes := [(n / 256).toUInt8, (n % 256).toUInt8]

theorem read_u16_u16_bytes {n : Nat} (hn : n < 65536) (rest : Bytes) :
    readU16 (u16Bytes n ++ rest) = .ok (n, rest) := by
  have hval : (n / 256).toUInt8.toNat * 256 + (n % 256).toUInt8.toNat = n := by
    simp only [Nat.toUInt8, UInt8.toNat_ofNat']
    omega
  show Except.ok ((n / 256).toUInt8.toNat * 256 + (n % 256).toUInt8.toNat, rest) = _
  rw [hval]

/-- A vector whose bytes are all present is read from exactly those bytes. -/
theorem read_vector_of_length {α : Type} (f : Reader UInt8 (Option α)) (v rest : Bytes)
    (hlen : v.length ≤ 8192) :
    readVector f (u16Bytes v.length ++ v ++ rest) = (readAll v f).map (·, rest) := by
  unfold readVector
  rw [List.append_assoc, bind_of_ok (read_u16_u16_bytes (by omega) (v ++ rest)),
    if_neg (by omega), bind_of_ok (read_bytes_append v rest)]
  rfl

/-- The header of a handshake record of version `3.minor` with a body of `length` bytes. -/
def recordHeader (minor : UInt8) (length : Nat) : Bytes := [22, 3, minor] ++ u16Bytes length

theorem extract_sni_record {minor : UInt8} (hminor : minor = 0x01 ∨ minor = 0x03)
    (body rest : Bytes) (hlen : body.length ≤ 8192) :
    (extractSni (recordHeader minor body.length ++ body ++ rest)).map Prod.fst =
      readAll body handshake := by
  have hmin : ¬(minor ≠ 0x01 ∧ minor ≠ 0x03) := by
    rintro ⟨h1, h3⟩
    rcases hminor with h | h
    · exact h1 h
    · exact h3 h
  have hvec := read_vector_of_length handshake body rest hlen
  unfold extractSni
  simp only [recordHeader, List.append_assoc, List.cons_append, List.nil_append]
  rw [bind_of_ok (read_byte_cons _ _), if_neg (by decide), bind_of_ok (read_byte_cons _ _),
    if_neg (by decide), bind_of_ok (read_byte_cons _ _), if_neg hmin]
  rw [← List.append_assoc]
  cases hr : readAll body handshake with
  | error e =>
    rw [hr] at hvec
    rw [bind_of_error hvec]
    rfl
  | ok r =>
    rw [hr] at hvec
    rw [bind_of_ok hvec]
    rfl

/-- **A complete record decides.**  Once the first record is in the buffer, the verdict is the
    same for every continuation: it depends on the record's body alone. -/
theorem parse_sni_record {minor : UInt8} (hminor : minor = 0x01 ∨ minor = 0x03)
    (body rest : Bytes) (hlen : body.length ≤ 8192) :
    parseSni parse_name (recordHeader minor body.length ++ body ++ rest) =
      parseSni parse_name (recordHeader minor body.length ++ body) := by
  apply parse_sni_congr
  rw [extract_sni_record hminor body rest hlen, ← extract_sni_record hminor body [] hlen,
    List.append_nil]

/-- A complete handshake record that is not a ClientHello (handshake type 2) is refused by its
    reader with an early `Ok(None)` that leaves a byte of the record unread; `read_all` reports
    that as `EndOfInput`, so `parse_sni` answers `Incomplete` whatever follows the record. -/
theorem parse_sni_complete_record_incomplete (rest : Bytes) :
    parseSni parse_name ([0x16, 0x03, 0x01, 0x00, 0x02, 0x02, 0x00] ++ rest) = .error ⟨⟩ := by
  have hrec : [0x16, 0x03, 0x01, 0x00, 0x02, 0x02, 0x00] ++ rest =
      recordHeader 0x01 [0x02, 0x00].length ++ [0x02, 0x00] ++ rest := rfl
  rw [hrec]
  refine (parse_sni_record parse_name (.inl rfl) [0x02, 0x00] rest (by decide)).trans ?_
  rfl

end ParseSni

end LinkerdProxy.Tls
