import LinkerdProxy.Lib.MultiMap
import LinkerdProxy.Lib.Ascii
import Mathlib.Data.List.DropRight

namespace LinkerdProxy.Http

/-!
# Hop-by-hop header stripping (`linkerd_http_upgrade::strip_connection_headers`)

A proxy must remove the `Connection` field and every field it names before forwarding a message
(RFC 9110 §7.6.1); the proxy also always removes `Upgrade`, `Proxy-Connection` and `Keep-Alive`.
`http::HeaderMap` is a multimap: a message may carry several `Connection` field lines, each a
comma-separated list of options.  `HeaderMap::remove` deletes every value of a name but returns only
the first, and the function reads its option list from that value, and only when the value is
visible ASCII.

* `strip_connection_headers_eq_filter` — what the function removes, for every header map: the
  `Connection` lines, the three fixed names, and the options of the first `Connection` line when it
  reads as text;
* `strip_connection_headers_eq_spec` — with at most one `Connection` line, and that one text, this
  is the RFC's stripping;
* `strip_connection_headers_keeps_options` — a second `Connection` line, or a first one carrying an
  `obs-text` byte, leaves the fields it names in the message.
-/

/-! ### Header names and values -/

/-- A `tchar` of RFC 9110, the characters `http::HeaderName` accepts: letters, digits and
    ``!#$%&'*+-.^_`|~``. -/
def isTokenChar (c : Char) : Bool :=
  c.isAlphanum || [33, 35, 36, 37, 38, 39, 42, 43, 45, 46, 94, 95, 96, 124, 126].contains c.toNat

/-- `http::HeaderName`: a non-empty token, stored in lower case. -/
structure HeaderName where
  name : List Char
  valid : name ≠ [] ∧ name.all (fun c => isTokenChar c && !c.isUpper) = true

instance : DecidableEq HeaderName := fun a b =>
  if h : a.name = b.name then isTrue (by cases a; cases b; cases h; rfl)
  else isFalse (fun hab => h (congrArg HeaderName.name hab))

/-- The header name a string denotes (`HdrName::from_bytes`): the string in lower case, when that
    is a token. -/
def HeaderName.fromStr (s : List Char) : Option HeaderName :=
  if h : s.map Char.toLower ≠ [] ∧
      (s.map Char.toLower).all (fun c => isTokenChar c && !c.isUpper) = true then
    some ⟨s.map Char.toLower, h⟩
  else none

def CONNECTION : HeaderName := ⟨"connection".toList, by decide⟩
def UPGRADE : HeaderName := ⟨"upgrade".toList, by decide⟩

/-- A byte `http::HeaderValue` accepts: anything but a control character, tab excepted. -/
def isValueByte (b : UInt8) : Bool := (32 ≤ b && b ≠ 127) || b = 9

/-- `http::HeaderValue`: its bytes, which may include `obs-text` (128 and above). -/
structure HeaderValue where
  bytes : List UInt8
  valid : bytes.all isValueByte = true
  deriving DecidableEq

/-- A byte read as a character. -/
def byteChar (b : UInt8) : Char := Char.ofNat b.toNat

/-- `HeaderValue::to_str`: the value as text when every byte is visible ASCII or a tab. -/
def HeaderValue.toStr (v : HeaderValue) : Option (List Char) :=
  if v.bytes.all (fun b => (32 ≤ b && b < 127) || b = 9) then some (v.bytes.map byteChar) else none

/-- `http::HeaderMap`, as its field lines in order. -/
structure HeaderMap where
  fields : List (HeaderName × HeaderValue)
  deriving DecidableEq

/-- `HeaderMap::get_all`. -/
def HeaderMap.get_all (h : HeaderMap) (k : HeaderName) : List HeaderValue := getAll h.fields k

/-- `HeaderMap::remove` for a `HeaderName`: every value goes, the first is returned. -/
def HeaderMap.remove (h : HeaderMap) (k : HeaderName) : Option HeaderValue × HeaderMap :=
  let (v, fields) := removeKey k h.fields
  (v, ⟨fields⟩)

/-- `HeaderMap::remove` for a `&str`: a string that is not a header name removes nothing. -/
def HeaderMap.removeStr (h : HeaderMap) (s : List Char) : Option HeaderValue × HeaderMap :=
  match HeaderName.fromStr s with
  | some k => h.remove k
  | none => (none, h)

/-- `char::is_whitespace` on the characters a header value can hold as text: a space, or a tab up to
    a carriage return. -/
def isWhitespace (c : Char) : Bool := c.toNat = 32 || (9 ≤ c.toNat && c.toNat ≤ 13)

/-- `str::trim`. -/
def trim (s : List Char) : List Char := (s.dropWhile isWhitespace).rdropWhile isWhitespace

/-! ### The function -/

/-- The first half of `strip_connection_headers`: the `Connection` lines go, and when the first
    one reads as text, every field its comma-separated options name. -/
def stripConnectionOptions (headers : HeaderMap) : HeaderMap :=
  match headers.remove CONNECTION with
  | (some val, headers) =>
    match val.toStr with
    | some conn_header =>
      (conn_header.splitOn ',').foldl (fun headers name => (headers.removeStr (trim name)).2) headers
    | none => headers
  | (none, headers) => headers

/-- `strip_connection_headers`. -/
def stripConnectionHeaders (headers : HeaderMap) : HeaderMap :=
  let headers := stripConnectionOptions headers
  let headers := (headers.remove UPGRADE).2
  let headers := (headers.removeStr "proxy-connection".toList).2
  (headers.removeStr "keep-alive".toList).2

/-! ### What RFC 9110 asks for -/

/-- Optional whitespace (`OWS`): spaces and tabs. -/
def isOws (c : Char) : Bool := c.toNat = 32 || c.toNat = 9

/-- The connection options of a `Connection` line: its comma-separated elements, `OWS` trimmed. -/
def connectionOptions (v : HeaderValue) : List (List Char) :=
  ((v.bytes.map byteChar).splitOn ',').map fun o => (o.dropWhile isOws).rdropWhile isOws

/-- Whether a field must go before the message is forwarded: `Connection` itself, a field some
    `Connection` line names, or one of the fields always removed. -/
def hopByHop (h : HeaderMap) (n : HeaderName) : Bool :=
  n = CONNECTION || n = UPGRADE || n.name = "proxy-connection".toList ||
    n.name = "keep-alive".toList ||
    (h.get_all CONNECTION).any fun v => (connectionOptions v).any (eqIgnoreAsciiCase n.name)

/-- The stripping RFC 9110 §7.6.1 describes: the other fields stay, with their values in order. -/
def stripSpec (h : HeaderMap) : HeaderMap := ⟨h.fields.filter fun f => !hopByHop h f.1⟩

/-! ### Names and removal -/

/-- A header name is its own lower case. -/
theorem HeaderName.map_toLower (n : HeaderName) : n.name.map Char.toLower = n.name := by
  conv_rhs => rw [← List.map_id n.name]
  apply List.map_congr_left
  intro c hc
  have hc' := List.all_eq_true.mp n.valid.2 c hc
  simp only [Bool.and_eq_true, Bool.not_eq_eq_eq_not, Bool.not_true] at hc'
  exact toLower_of_isUpper_eq_false hc'.2

theorem HeaderName.ext_name {a b : HeaderName} (h : a.name = b.name) : a = b := by
  cases a; cases b; cases h; rfl

theorem HeaderName.from_str_name {s : List Char} {k : HeaderName}
    (h : HeaderName.fromStr s = some k) : k.name = s.map Char.toLower := by
  unfold HeaderName.fromStr at h
  split at h
  · cases h
    rfl
  · cases h

/-- A string that is not a header name names no header. -/
theorem HeaderName.name_ne_of_from_str_eq_none {s : List Char}
    (h : HeaderName.fromStr s = none) (n : HeaderName) : n.name ≠ s.map Char.toLower := by
  intro hn
  unfold HeaderName.fromStr at h
  rw [dif_pos (hn ▸ n.valid)] at h
  cases h

theorem HeaderMap.remove_eq (h : HeaderMap) (k : HeaderName) :
    h.remove k = ((h.get_all k).head?, ⟨h.fields.filter fun f => f.1 ≠ k⟩) := rfl

@[simp] theorem HeaderMap.remove_snd (h : HeaderMap) (k : HeaderName) :
    (h.remove k).2 = ⟨h.fields.filter fun f => f.1 ≠ k⟩ := rfl

/-- Removing by a string removes the fields named by its lower case, whether or not it is a
    header name. -/
@[simp] theorem HeaderMap.remove_str_snd (h : HeaderMap) (s : List Char) :
    (h.removeStr s).2 = ⟨h.fields.filter fun f => f.1.name ≠ s.map Char.toLower⟩ := by
  unfold HeaderMap.removeStr
  cases hk : HeaderName.fromStr s with
  | some k =>
    rw [HeaderMap.remove_snd, ← HeaderName.from_str_name hk]
    congr 2
    funext f
    exact decide_eq_decide.mpr ⟨fun hne hn => hne (HeaderName.ext_name hn), fun hne hk => hne (hk ▸ rfl)⟩
  | none =>
    -- no field is named by the string
    simp [HeaderName.name_ne_of_from_str_eq_none hk]

/-- Removals by strings in sequence remove every field one of the strings names. -/
theorem HeaderMap.foldl_remove_str (names : List (List Char)) (h : HeaderMap) :
    names.foldl (fun h name => (h.removeStr name).2) h =
      ⟨h.fields.filter fun f => names.all fun name => f.1.name ≠ name.map Char.toLower⟩ := by
  have hfields : (names.foldl (fun h name => (h.removeStr name).2) h).fields =
      names.foldl (fun m name => m.filter fun f => f.1.name ≠ name.map Char.toLower) h.fields :=
    (List.foldl_hom HeaderMap.fields fun x y => by simp).symm
  rw [foldl_filter] at hfields
  generalize names.foldl (fun h name => (h.removeStr name).2) h = r at hfields ⊢
  cases r
  cases hfields
  rfl

/-! ### What the function removes -/

/-- The options `strip_connection_headers` acts on: those of the first `Connection` line, trimmed,
    when that line reads as text. -/
def readOptions (h : HeaderMap) : List (List Char) :=
  match (h.get_all CONNECTION).head? with
  | some v =>
    match v.toStr with
    | some conn_header => (conn_header.splitOn ',').map trim
    | none => []
  | none => []

theorem strip_connection_options_eq (h : HeaderMap) :
    stripConnectionOptions h = ⟨h.fields.filter fun f =>
      (readOptions h).all (fun o => f.1.name ≠ o.map Char.toLower) && f.1 ≠ CONNECTION⟩ := by
  unfold stripConnectionOptions readOptions
  rw [HeaderMap.remove_eq]
  cases hv : (h.get_all CONNECTION).head? with
  | none => simp
  | some v =>
    cases ht : v.toStr with
    | none => simp [ht]
    | some conn_header =>
      -- the trimmed options are removed one after another from the map without `Connection`
      simp only [ht]
      rw [← @List.foldl_map _ _ _ trim (fun (h : HeaderMap) name => (h.removeStr name).2),
        HeaderMap.foldl_remove_str, List.filter_filter]

theorem strip_connection_headers_eq_filter (h : HeaderMap) :
    stripConnectionHeaders h = ⟨h.fields.filter fun f =>
      !(f.1 = CONNECTION || f.1 = UPGRADE || f.1.name = "proxy-connection".toList ||
        f.1.name = "keep-alive".toList ||
        (readOptions h).any fun o => f.1.name = o.map Char.toLower)⟩ := by
  have hproxy : "proxy-connection".toList.map Char.toLower = "proxy-connection".toList := by decide
  have hkeep : "keep-alive".toList.map Char.toLower = "keep-alive".toList := by decide
  unfold stripConnectionHeaders
  simp only [strip_connection_options_eq, HeaderMap.remove_snd, HeaderMap.remove_str_snd,
    List.filter_filter, hproxy, hkeep]
  congr 2
  funext f
  simp only [List.all_eq_not_any_not, Bool.not_not, Bool.or_assoc, Bool.not_or, decide_not,
    Bool.and_comm, Bool.and_left_comm]

/-! ### Against RFC 9110 -/

/-- `List.dropWhile` reads its predicate only on the elements of the list. -/
theorem dropWhile_congr {p q : Char → Bool} :
    ∀ {s : List Char}, (∀ c ∈ s, p c = q c) → s.dropWhile p = s.dropWhile q
  | [], _ => rfl
  | c :: s, h => by
    rw [List.dropWhile_cons, List.dropWhile_cons, h c List.mem_cons_self]
    split
    · exact dropWhile_congr fun d hd => h d (List.mem_cons_of_mem c hd)
    · rfl

theorem rdropWhile_congr {p q : Char → Bool} {s : List Char} (h : ∀ c ∈ s, p c = q c) :
    s.rdropWhile p = s.rdropWhile q := by
  unfold List.rdropWhile
  rw [dropWhile_congr fun c hc => h c (List.mem_reverse.mp hc)]

/-- `str::trim` trims `OWS` from text in which no other whitespace occurs. -/
theorem trim_eq_of_ows {s : List Char} (h : ∀ c ∈ s, isWhitespace c = isOws c) :
    trim s = (s.dropWhile isOws).rdropWhile isOws := by
  unfold trim
  rw [dropWhile_congr h]
  exact rdropWhile_congr fun c hc => h c ((List.dropWhile_suffix _).subset hc)

theorem toNat_byteChar (b : UInt8) : (byteChar b).toNat = b.toNat := by
  have hb := b.toNat_lt
  unfold byteChar Char.ofNat
  rw [dif_pos (Or.inl (by omega))]
  simp [Char.ofNatAux, Char.toNat]

/-- The only whitespace among the bytes `to_str` accepts are the space and the tab. -/
theorem is_whitespace_byteChar {b : UInt8} (hb : ((32 ≤ b && b < 127) || b = 9) = true) :
    isWhitespace (byteChar b) = isOws (byteChar b) := by
  have hb' : (32 ≤ b.toNat ∧ b.toNat < 127) ∨ b.toNat = 9 := by
    simpa [UInt8.le_iff_toNat_le, UInt8.lt_iff_toNat_lt, UInt8.ext_iff] using hb
  unfold isWhitespace isOws
  rw [toNat_byteChar]
  by_cases h32 : b.toNat = 32 <;> by_cases h9 : b.toNat = 9 <;> simp [h32, h9]; omega

/-- A character of a piece of `xs.splitOn a` is a character of `xs`. -/
theorem mem_of_mem_splitOn {a c : Char} {o : List Char} :
    ∀ {xs : List Char}, o ∈ xs.splitOn a → c ∈ o → c ∈ xs
  | [], ho, hc => by
    rw [List.splitOn_nil, List.mem_singleton] at ho
    subst ho
    cases hc
  | x :: xs, ho, hc => by
    rw [List.splitOn_cons_eq_if_modifyHead] at ho
    split at ho
    · -- a separator: the pieces are an empty one and those of the rest
      rcases List.mem_cons.mp ho with rfl | ho
      · cases hc
      · exact List.mem_cons_of_mem x (mem_of_mem_splitOn ho hc)
    · -- another character joins the first piece of the rest
      obtain ⟨p, ps, hps⟩ := List.exists_cons_of_ne_nil (List.splitOn_ne_nil a xs)
      rw [hps, List.modifyHead_cons] at ho
      rcases List.mem_cons.mp ho with rfl | ho
      · rcases List.mem_cons.mp hc with rfl | hc
        · exact List.mem_cons_self
        · exact List.mem_cons_of_mem x (mem_of_mem_splitOn (hps ▸ List.mem_cons_self) hc)
      · exact List.mem_cons_of_mem x (mem_of_mem_splitOn (hps ▸ List.mem_cons_of_mem p ho) hc)

/-- With a single `Connection` line that reads as text, the function acts on the line's options. -/
theorem read_options_of_to_str {h : HeaderMap} {v : HeaderValue} (hv : h.get_all CONNECTION = [v])
    {t : List Char} (ht : v.toStr = some t) : readOptions h = connectionOptions v := by
  unfold readOptions
  rw [hv, List.head?_cons]
  simp only [ht]
  unfold HeaderValue.toStr at ht
  split at ht
  · rename_i htext
    cases ht
    unfold connectionOptions
    apply List.map_congr_left
    intro o ho
    apply trim_eq_of_ows
    intro c hc
    obtain ⟨b, hb, rfl⟩ := List.mem_map.mp (mem_of_mem_splitOn ho hc)
    exact is_whitespace_byteChar (List.all_eq_true.mp htext b hb)
  · cases ht

/-- A header name is one of the options exactly when it is the option in lower case. -/
theorem eq_ignore_ascii_case_name (n : HeaderName) (o : List Char) :
    eqIgnoreAsciiCase n.name o = decide (n.name = o.map Char.toLower) := by
  rw [eqIgnoreAsciiCase, HeaderName.map_toLower]

/-- **The RFC's stripping**, when the message has at most one `Connection` line and that line is
    text: every field of the message stays unless the RFC removes it, with its values in order. -/
theorem strip_connection_headers_eq_spec (h : HeaderMap)
    (hconn : h.get_all CONNECTION = [] ∨ ∃ v, h.get_all CONNECTION = [v] ∧ v.toStr.isSome) :
    stripConnectionHeaders h = stripSpec h := by
  have hopts : ∀ n : HeaderName, ((readOptions h).any fun o => n.name = o.map Char.toLower) =
      (h.get_all CONNECTION).any fun v => (connectionOptions v).any (eqIgnoreAsciiCase n.name) := by
    intro n
    rcases hconn with hnil | ⟨v, hv, ht⟩
    · simp [readOptions, hnil]
    · obtain ⟨t, ht⟩ := Option.isSome_iff_exists.mp ht
      rw [read_options_of_to_str hv ht, hv, List.any_cons, List.any_nil, Bool.or_false]
      congr 1
      funext o
      exact (eq_ignore_ascii_case_name n o).symm
  rw [strip_connection_headers_eq_filter]
  unfold stripSpec hopByHop
  congr 1
  apply List.filter_congr
  intro f _
  rw [hopts f.1]

/-- A single `Connection: close` line. -/
theorem strip_connection_headers_eq_spec_close :
    stripConnectionHeaders ⟨[(CONNECTION, ⟨[99, 108, 111, 115, 101], by decide⟩)]⟩ =
      stripSpec ⟨[(CONNECTION, ⟨[99, 108, 111, 115, 101], by decide⟩)]⟩ :=
  strip_connection_headers_eq_spec _ (.inr ⟨⟨[99, 108, 111, 115, 101], by decide⟩, rfl, rfl⟩)

def X_DEBUG : HeaderName := ⟨"x-debug".toList, by decide⟩

/-- `Connection: close`, `Connection: x-debug`, `x-debug: 1`. -/
def twoConnectionLines : HeaderMap :=
  ⟨[(CONNECTION, ⟨[99, 108, 111, 115, 101], by decide⟩),
    (CONNECTION, ⟨[120, 45, 100, 101, 98, 117, 103], by decide⟩), (X_DEBUG, ⟨[49], by decide⟩)]⟩

/-- `Connection: x-debug, ÿ` (the last byte 255, `obs-text`), `x-debug: 1`. -/
def obsTextConnectionLine : HeaderMap :=
  ⟨[(CONNECTION, ⟨[120, 45, 100, 101, 98, 117, 103, 44, 32, 255], by decide⟩),
    (X_DEBUG, ⟨[49], by decide⟩)]⟩

/-- **Options the function misses.**  A field named by a second `Connection` line, or by a first
    line that is not text, is forwarded, where RFC 9110 removes it. -/
theorem strip_connection_headers_keeps_options :
    (stripConnectionHeaders twoConnectionLines).fields.map Prod.fst = [X_DEBUG] ∧
      (stripSpec twoConnectionLines).fields = [] ∧
    (stripConnectionHeaders obsTextConnectionLine).fields.map Prod.fst = [X_DEBUG] ∧
      (stripSpec obsTextConnectionLine).fields = [] := by
  decide

end LinkerdProxy.Http
