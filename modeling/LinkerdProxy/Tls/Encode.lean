import LinkerdProxy.Tls.ClientHello

namespace LinkerdProxy.Tls

open Reader

/-!
# ClientHellos that `parse_sni` reads

The other direction of `parse_sni`: the bytes a client writes for a ClientHello whose last
extension is a `server_name` with one `host_name`.  Every vector of the message is within the
8192-byte bound of `read_vector` when the handshake message is.

* `extensions_server_name` — the loop skips the other extensions and returns the name;
* `parse_sni_client_hello` — the first record of a connection that carries such a ClientHello is
  read as its name, whatever follows the record.
-/

/-- A `u16` vector: the big-endian length, then the bytes. -/
def vector (v : Bytes) : Bytes := u16Bytes v.length ++ v

/-- A `u8` vector. -/
def vectorU8 (v : Bytes) : Bytes := v.length.toUInt8 :: v

/-- An extension: its type, then its data as a vector. -/
def extension (extension_type : Nat) (data : Bytes) : Bytes :=
  u16Bytes extension_type ++ vector data

/-- The `server_name` extension with a single `host_name`. -/
def serverNameExtension (name : Bytes) : Bytes := extension 0 (vector (0 :: vector name))

/-- The extensions of a ClientHello: the others in order, then the server name. -/
def extensionsBytes (others : List (Nat × Bytes)) (name : Bytes) : Bytes :=
  (others.map fun e => extension e.1 e.2).flatten ++ serverNameExtension name

/-- A ClientHello with `legacy_version` 3.3: the random, the session id, the cipher suites, the
    compression methods and the extensions. -/
def clientHelloBytes (random session_id cipher_suites compression_methods : Bytes)
    (others : List (Nat × Bytes)) (name : Bytes) : Bytes :=
  [3, 3] ++ random ++ vectorU8 session_id ++ vector cipher_suites ++
    vectorU8 compression_methods ++ vector (extensionsBytes others name)

/-- The handshake message of a ClientHello, with its 24-bit length. -/
def handshakeBytes (hello : Bytes) : Bytes := [1, 0] ++ vector hello

/-! ### Reading the vectors back -/

theorem read_vector_vector {α : Type} (f : Reader UInt8 (Option α)) (v rest : Bytes)
    (hlen : v.length ≤ 8192) : readVector f (vector v ++ rest) = (readAll v f).map (·, rest) := by
  rw [vector, List.append_assoc]
  exact read_vector_of_length f v rest hlen

/-- A vector read to its end by a reader that succeeds on its bytes. -/
theorem read_vector_vector_of_ok {α : Type} {f : Reader UInt8 (Option α)} {v rest : Bytes}
    {a : Option α} (hlen : v.length ≤ 8192) (hf : f v = .ok (a, [])) :
    readVector f (vector v ++ rest) = .ok (a, rest) := by
  rw [read_vector_vector f v rest hlen, read_all_eq_ok.mpr hf]
  rfl

theorem skip_vector_vector (v rest : Bytes) (hlen : v.length ≤ 8192) :
    skipVector (vector v ++ rest) = .ok (true, rest) := by
  unfold skipVector
  rw [bind_of_ok (read_vector_vector_of_ok hlen rfl)]
  rfl

theorem skip_append (ys rest : Bytes) : skip ys.length (ys ++ rest) = .ok ((), rest) := by
  unfold skip
  rw [bind_of_ok (read_bytes_append ys rest)]
  rfl

theorem skip_vector_u8_vector_u8 (v rest : Bytes) (hlen : v.length < 256) :
    skipVectorU8 (vectorU8 v ++ rest) = .ok ((), rest) := by
  have hbyte : v.length.toUInt8.toNat = v.length := by
    simp only [Nat.toUInt8, UInt8.toNat_ofNat']
    omega
  unfold skipVectorU8
  rw [vectorU8, List.cons_append, bind_of_ok (read_byte_cons _ _), hbyte]
  exact skip_append v rest

theorem length_u16_bytes (n : Nat) : (u16Bytes n).length = 2 := rfl

theorem length_vector (v : Bytes) : (vector v).length = v.length + 2 := by
  simp [vector, length_u16_bytes, Nat.add_comm]

/-! ### The extensions -/

theorem server_name_vector (name rest : Bytes) (hlen : name.length + 5 ≤ 8192) :
    serverName (vector (vector (0 :: vector name)) ++ rest) = .ok (some name, rest) := by
  -- from the inside out: the host name, its entry, and the list of one entry
  have hname : readVector (do let name ← readBytesToEnd; pure (some name))
      (vector name ++ []) = .ok (some name, []) :=
    read_vector_vector_of_ok (by omega) rfl
  have hentry : (do
      let name_type ← readByte
      if name_type ≠ 0 then pure none
      else readVector do
        let name ← readBytesToEnd
        pure (some name) : Reader UInt8 (Option Bytes)) (0 :: vector name) =
      .ok (some name, []) := by
    rw [bind_of_ok (read_byte_cons _ _), if_neg (by decide)]
    simpa using hname
  have hlist : readVector _ (vector (0 :: vector name) ++ []) = .ok (some name, []) :=
    read_vector_vector_of_ok (by simp [length_vector]; omega) hentry
  rw [List.append_nil] at hlist
  exact read_vector_vector_of_ok (by simp [length_vector]; omega) hlist

theorem extensions_succ_of_ne_nil (fuel : Nat) {xs : Bytes} (h : xs ≠ []) :
    extensions (fuel + 1) xs = (do
      let extension_type ← readU16
      if extension_type ≠ 0 then
        let _ ← skipVector
        extensions fuel
      else
        let r ← serverName
        skipToEnd
        pure r) xs := by
  cases xs with
  | nil => exact absurd rfl h
  | cons x xs => rfl

/-- **The extension loop finds the name** behind any other extensions, with one round of fuel
    for each. -/
theorem extensions_server_name (others : List (Nat × Bytes)) (name : Bytes)
    (htypes : ∀ e ∈ others, e.1 ≠ 0 ∧ e.1 < 65536) (hdata : ∀ e ∈ others, e.2.length ≤ 8192)
    (hname : name.length + 5 ≤ 8192) :
    ∀ fuel, others.length < fuel →
      extensions fuel (extensionsBytes others name) = .ok (some name, []) := by
  induction others with
  | nil =>
    intro fuel hfuel
    obtain ⟨k, rfl⟩ : ∃ k, fuel = k + 1 := ⟨fuel - 1, by simp at hfuel; omega⟩
    have hext : extensionsBytes [] name = u16Bytes 0 ++ (vector (vector (0 :: vector name)) ++ []) := by
      simp [extensionsBytes, serverNameExtension, extension]
    rw [hext, extensions_succ_of_ne_nil k (by simp [u16Bytes]),
      bind_of_ok (read_u16_u16_bytes (by decide) _), if_neg (by decide),
      bind_of_ok (server_name_vector name [] hname)]
    rfl
  | cons e others ih =>
    intro fuel hfuel
    obtain ⟨k, rfl⟩ : ∃ k, fuel = k + 1 := ⟨fuel - 1, by simp at hfuel; omega⟩
    obtain ⟨hne, hlt⟩ := htypes e List.mem_cons_self
    -- another extension: its type is read, its data skipped, and the loop goes on
    have hrest : extensionsBytes (e :: others) name =
        u16Bytes e.1 ++ (vector e.2 ++ extensionsBytes others name) := by
      simp [extensionsBytes, extension]
    rw [hrest, extensions_succ_of_ne_nil k (by simp [u16Bytes]),
      bind_of_ok (read_u16_u16_bytes hlt _), if_pos hne,
      bind_of_ok (skip_vector_vector e.2 _ (hdata e List.mem_cons_self))]
    exact ih (fun e' he' => htypes e' (List.mem_cons_of_mem e he'))
      (fun e' he' => hdata e' (List.mem_cons_of_mem e he')) k (by simp at hfuel; omega)

/-- Every extension takes at least one byte, so the extensions' bytes outnumber the others. -/
theorem length_extensions_bytes (others : List (Nat × Bytes)) (name : Bytes) :
    others.length < (extensionsBytes others name).length := by
  induction others with
  | nil =>
    simp only [extensionsBytes, serverNameExtension, extension, List.map_nil,
      List.flatten_nil, List.nil_append, List.length_append, length_u16_bytes, List.length_nil]
    omega
  | cons e others ih =>
    simp only [extensionsBytes, List.map_cons, List.flatten_cons, List.append_assoc,
      List.length_append, List.length_cons] at ih ⊢
    have : 0 < (extension e.1 e.2).length := by
      simp only [extension, List.length_append, length_u16_bytes]
      omega
    omega

theorem sni_extension_extensions_bytes (others : List (Nat × Bytes)) (name : Bytes)
    (htypes : ∀ e ∈ others, e.1 ≠ 0 ∧ e.1 < 65536) (hdata : ∀ e ∈ others, e.2.length ≤ 8192)
    (hname : name.length + 5 ≤ 8192) :
    sniExtension (extensionsBytes others name) = .ok (some name, []) :=
  extensions_server_name others name htypes hdata hname _ (length_extensions_bytes others name)

/-- The data of every other extension lies within the extensions' bytes. -/
theorem length_data_le (others : List (Nat × Bytes)) (name : Bytes) :
    ∀ e ∈ others, e.2.length + 4 ≤ (extensionsBytes others name).length := by
  induction others with
  | nil => simp
  | cons e others ih =>
    intro e' he'
    simp only [extensionsBytes, List.map_cons, List.flatten_cons, List.append_assoc,
      List.length_append] at ih ⊢
    have hhead : (extension e.1 e.2).length = e.2.length + 4 := by
      simp only [extension, List.length_append, length_u16_bytes, length_vector]
      omega
    rcases List.mem_cons.mp he' with rfl | hmem
    · omega
    · have := ih e' hmem
      omega

theorem length_name_le (others : List (Nat × Bytes)) (name : Bytes) :
    name.length + 9 ≤ (extensionsBytes others name).length := by
  simp only [extensionsBytes, serverNameExtension, extension, List.length_append,
    length_u16_bytes, length_vector, List.length_cons]
  omega

/-! ### The ClientHello, its handshake message and its record -/

theorem client_hello_client_hello_bytes (random session_id cipher_suites compression_methods : Bytes)
    (others : List (Nat × Bytes)) (name : Bytes) (hrandom : random.length = 32)
    (hsession : session_id.length < 256) (hcompression : compression_methods.length < 256)
    (hcipher : cipher_suites.length ≤ 8192) (hext : (extensionsBytes others name).length ≤ 8192)
    (htypes : ∀ e ∈ others, e.1 ≠ 0 ∧ e.1 < 65536) :
    clientHello (clientHelloBytes random session_id cipher_suites compression_methods others name)
      = .ok (some name, []) := by
  have hskip : ∀ rest, skip 32 (random ++ rest) = .ok ((), rest) := fun rest =>
    hrandom ▸ skip_append random rest
  have hexts : readVector sniExtension (vector (extensionsBytes others name) ++ []) =
      .ok (some name, []) := by
    apply read_vector_vector_of_ok hext
    apply sni_extension_extensions_bytes others name htypes
    · intro e he
      have := length_data_le others name e he
      omega
    · have := length_name_le others name
      omega
  rw [List.append_nil] at hexts
  unfold clientHello clientHelloBytes
  simp only [List.append_assoc, List.cons_append, List.nil_append]
  rw [bind_of_ok (read_byte_cons _ _), if_neg (by decide), bind_of_ok (read_byte_cons _ _),
    if_neg (by decide), bind_of_ok (hskip _), bind_of_ok (skip_vector_u8_vector_u8 _ _ hsession),
    bind_of_ok (skip_vector_vector _ _ hcipher), if_neg (by decide),
    bind_of_ok (skip_vector_u8_vector_u8 _ _ hcompression)]
  exact hexts

theorem handshake_handshake_bytes {hello : Bytes} {r : Option Bytes} (hlen : hello.length ≤ 8192)
    (h : clientHello hello = .ok (r, [])) : handshake (handshakeBytes hello) = .ok (r, []) := by
  have hvec : readVector clientHello (vector hello ++ []) = .ok (r, []) :=
    read_vector_vector_of_ok hlen h
  rw [List.append_nil] at hvec
  unfold handshake handshakeBytes
  simp only [List.cons_append, List.nil_append]
  rw [bind_of_ok (read_byte_cons _ _), if_neg (by decide), bind_of_ok (read_byte_cons _ _),
    if_neg (by decide)]
  exact hvec

/-- A record of version `3.minor` carrying `body`. -/
def recordBytes (minor : UInt8) (body : Bytes) : Bytes := recordHeader minor body.length ++ body

section ParseName

variable {N : Type} (parse_name : Bytes → Option N)

theorem parse_sni_of_extract_sni {x name : Bytes}
    (h : (extractSni x).map Prod.fst = .ok (some name)) :
    parseSni parse_name x = .ok (parse_name name) := by
  unfold parseSni
  rw [read_all_of_skip_to_end, h]
  dsimp only
  cases parse_name name <;> rfl

/-- **A ClientHello is read as its name.**  The first record of a connection that carries a
    ClientHello, whose extensions end with a `server_name`, gives that name to `parse_sni`,
    whatever follows the record. -/
theorem parse_sni_client_hello {minor : UInt8} (hminor : minor = 0x01 ∨ minor = 0x03)
    (random session_id cipher_suites compression_methods : Bytes) (others : List (Nat × Bytes))
    (name rest : Bytes) (hrandom : random.length = 32) (hsession : session_id.length < 256)
    (hcompression : compression_methods.length < 256)
    (htypes : ∀ e ∈ others, e.1 ≠ 0 ∧ e.1 < 65536)
    (hlen : (handshakeBytes (clientHelloBytes random session_id cipher_suites
      compression_methods others name)).length ≤ 8192) :
    parseSni parse_name (recordBytes minor (handshakeBytes (clientHelloBytes random session_id
      cipher_suites compression_methods others name)) ++ rest) = .ok (parse_name name) := by
  -- every vector inside the handshake message is shorter than it
  have hsizes := hlen
  simp only [handshakeBytes, clientHelloBytes, vectorU8, List.length_append,
    List.length_cons, length_vector, List.length_nil] at hsizes
  have hhello := client_hello_client_hello_bytes random session_id cipher_suites
    compression_methods others name hrandom hsession hcompression (by omega) (by omega) htypes
  have hhandshake := handshake_handshake_bytes (by
    simp only [clientHelloBytes, vectorU8, List.length_append, List.length_cons,
      length_vector, List.length_nil]
    omega) hhello
  apply parse_sni_of_extract_sni
  rw [recordBytes, extract_sni_record hminor _ rest hlen, read_all_eq_ok.mpr hhandshake]

example : parseSni (fun n : Bytes => some n) (recordBytes 1 (handshakeBytes
    (clientHelloBytes (List.replicate 32 7) [] [0x13, 0x01] [0] [(10, [0, 2, 0, 29])] [0x61]))) =
    .ok (some [0x61]) := by
  decide

end ParseName

end LinkerdProxy.Tls
