import LinkerdProxy.Lib.FirstMax
import Mathlib

namespace LinkerdProxy.HttpRoute

/-!
# Request matchers and their summaries (`http::r#match`)

A matcher inspects a request and, when it applies, summarizes how specific the match was; route
selection compares the summaries.  Host matchers (`MatchHost`) yield a `HostMatch`, exact above
suffix; request matchers (`MatchRequest`) yield a `RequestMatch`: the kind and length of the path
match, how many header and query matchers passed, and whether the method was checked.  Path
matches compare by length alone, so an exact and a prefix match of one length tie although they
differ.

* `HostMatch.cmp_eq_compareLex`, `RequestMatch.cmp_eq_compareLex` — both orders are
  lexicographic, hence total preorders (`Std.TransOrd`).
-/

/-- `http::Uri`, through what route matching reads of it: the host of its authority
    (`uri.authority()?.host()`) and its path. -/
structure Uri where
  host : Option (List Char)
  path : List Char
  deriving DecidableEq, Repr

/-- `str::len`: the length in UTF-8 bytes. -/
def byteLen (s : List Char) : Nat := (s.map Char.utf8Size).sum

@[simp] theorem byteLen_append (s t : List Char) : byteLen (s ++ t) = byteLen s + byteLen t := by
  simp [byteLen]

/-- `str::strip_suffix`. -/
def stripSuffix (s p : List Char) : Option (List Char) :=
  if p <:+ s then some (s.take (s.length - p.length)) else none

/-- A host matcher (`MatchHost`): an exact name, or a suffix given by its labels in reverse. -/
inductive MatchHost where
  | exact (h : List Char)
  | suffix (labels : List (List Char))
  deriving DecidableEq, Repr

/-- The summary of a host match (`HostMatch`): its kind and the length it matched. -/
inductive HostMatch where
  | exact (len : Nat)
  | suffix (len : Nat)
  deriving DecidableEq, Repr

/-- `Ord for HostMatch`: exact matches above suffix matches, longer above shorter. -/
def HostMatch.cmp : HostMatch → HostMatch → Ordering
  | .exact l, .exact r => compare l r
  | .suffix l, .suffix r => compare l r
  | .exact _, .suffix _ => .gt
  | .suffix _, .exact _ => .lt

instance : Ord HostMatch := ⟨HostMatch.cmp⟩

/-- The kind of a host match, exact above suffix. -/
def HostMatch.rank : HostMatch → Nat
  | .exact _ => 1
  | .suffix _ => 0

def HostMatch.len : HostMatch → Nat
  | .exact l | .suffix l => l

/-- The comparison is lexicographic on the kind, then the length. -/
theorem HostMatch.cmp_eq_compareLex :
    HostMatch.cmp = compareLex (compareOn HostMatch.rank) (compareOn HostMatch.len) := by
  funext a b
  cases a <;> cases b <;> rfl

instance : Std.TransOrd HostMatch := by
  show Std.TransCmp HostMatch.cmp
  rw [HostMatch.cmp_eq_compareLex]
  infer_instance

/-- `MatchHost::summarize_match`.  A trailing dot of the request's host is ignored unless the
    matcher itself ends in one; a suffix matcher strips its labels one by one, each followed by
    a dot. -/
def MatchHost.summarizeMatch (m : MatchHost) (uri : Uri) : Option HostMatch := do
  let host ← uri.host
  match m with
  | .exact h =>
    let host := if h.getLast? ≠ some '.' then (stripSuffix host ['.']).getD host else host
    if h = host then some (.exact (byteLen h)) else none
  | .suffix labels =>
    let host := if labels.head? ≠ some [] then (stripSuffix host ['.']).getD host else host
    let (_, length) ← labels.foldlM (fun (acc : List Char × Nat) sfx => do
        let host ← stripSuffix acc.1 sfx
        let host ← stripSuffix host ['.']
        pure (host, acc.2 + byteLen sfx + 1)) (host, 0)
    some (.suffix length)

example : (MatchHost.exact "example.com".toList).summarizeMatch
    ⟨some "example.com.".toList, "/".toList⟩ = some (.exact 11) := by decide

example : (MatchHost.suffix ["com".toList, "example".toList]).summarizeMatch
    ⟨some "foo.example.com".toList, "/".toList⟩ = some (.suffix 12) := by decide

/-- An HTTP request: its URI, and the rest of it, which only the request matchers read. -/
structure Request (B : Type) where
  uri : Uri
  parts : B

/-- The number of characters matched in the path (`PathMatch`); its `Prefix` variant is named
    `prefixed` here. -/
inductive PathMatch where
  | exact (len : Nat)
  | regex (len : Nat)
  | prefixed (len : Nat)
  deriving DecidableEq, Repr

def PathMatch.len : PathMatch → Nat
  | .exact len | .regex len | .prefixed len => len

/-- `Ord for PathMatch`: by length only. -/
instance : Ord PathMatch := ⟨compareOn PathMatch.len⟩

instance : Std.TransOrd PathMatch := inferInstanceAs (Std.TransCmp (compareOn PathMatch.len))

/-- A path matcher (`MatchPath`), over a type of compiled regular expressions. -/
inductive MatchPath (Re : Type) where
  | exact (s : List Char)
  | prefixed (s : List Char)
  | regex (re : Re)

/-- `str::trim_end_matches` for one character. -/
def trimEndMatches (c : Char) (s : List Char) : List Char := s.rdropWhile (· == c)

/-- `str::strip_prefix`. -/
def stripStart (s p : List Char) : Option (List Char) :=
  if p <+: s then some (s.drop p.length) else none

/-- `MatchPath::match_length`.  `find re s` is the regex crate's leftmost match of `re` in `s`,
    as byte offsets; a regex matches only when its match spans the whole path. -/
def MatchPath.matchLength {Re : Type} (find : Re → List Char → Option (Nat × Nat))
    (m : MatchPath Re) (uri : Uri) : Option PathMatch :=
  match m with
  | .exact s => if s = uri.path then some (.exact (byteLen s)) else none
  | .regex re =>
    match find re uri.path with
    | some (start, stop) =>
      let len := byteLen uri.path
      if start = 0 ∧ stop = len then some (.regex len) else none
    | none => none
  | .prefixed p =>
    if p = ['/'] then some (.prefixed 1)
    else
      let p := trimEndMatches '/' p
      match stripStart (trimEndMatches '/' uri.path) p with
      | none => none
      -- the prefix must end at a segment boundary
      | some sfx => if sfx.isEmpty ∨ sfx.head? = some '/' then some (.prefixed (byteLen p)) else none

/-- Summarizes a matched HTTP request (`RequestMatch`). -/
structure RequestMatch where
  path_match : PathMatch
  headers : Nat
  query_params : Nat
  method : Bool
  deriving DecidableEq, Repr

/-- `Ord for RequestMatch`: the path match, then the header count, the query parameter count and
    whether the method was matched. -/
def RequestMatch.cmp (a b : RequestMatch) : Ordering :=
  (((compare a.path_match b.path_match).then (compare a.headers b.headers)).then
    (compare a.query_params b.query_params)).then (compare a.method b.method)

instance : Ord RequestMatch := ⟨RequestMatch.cmp⟩

theorem RequestMatch.cmp_eq_compareLex :
    RequestMatch.cmp = compareLex (compareOn RequestMatch.path_match)
      (compareLex (compareOn RequestMatch.headers)
        (compareLex (compareOn RequestMatch.query_params) (compareOn RequestMatch.method))) := by
  funext a b
  simp only [RequestMatch.cmp, compareLex, compareOn, Ordering.then_assoc]

instance : Std.TransOrd RequestMatch := by
  show Std.TransCmp RequestMatch.cmp
  rw [RequestMatch.cmp_eq_compareLex]
  infer_instance

/-- `Default for RequestMatch`: per the gateway spec, a prefix match on `/`. -/
instance : Inhabited RequestMatch := ⟨⟨.prefixed 1, 0, 0, false⟩⟩

/-- Matches HTTP requests (`MatchRequest`). -/
structure MatchRequest (Re H Q Method : Type) where
  path : Option (MatchPath Re)
  headers : List H
  query_params : List Q
  method : Option Method

/-- What request matching reads of an HTTP request besides its URI. -/
structure HttpParts (Method Hdrs : Type) where
  method : Method
  headers : Hdrs

section MatchRequest

variable {Re H Q Method Hdrs : Type} [DecidableEq Method]
  (find : Re → List Char → Option (Nat × Nat))
  (header_is_match : H → Hdrs → Bool) (query_is_match : Q → Uri → Bool)

/-- `MatchRequest::match_request`: every present matcher must accept the request; the summary
    starts from the default and records each matcher that took part. -/
def MatchRequest.matchRequest (m : MatchRequest Re H Q Method)
    (req : Request (HttpParts Method Hdrs)) : Option RequestMatch := do
  let method ← match m.method with
    | some method => if req.parts.method ≠ method then none else some true
    | none => some (default : RequestMatch).method
  let path_match ← match m.path with
    | some path => path.matchLength find req.uri
    | none => some (default : RequestMatch).path_match
  if !m.headers.all (header_is_match · req.parts.headers) then none
  else if !m.query_params.all (query_is_match · req.uri) then none
  else some ⟨path_match, m.headers.length, m.query_params.length, method⟩

end MatchRequest

end LinkerdProxy.HttpRoute
