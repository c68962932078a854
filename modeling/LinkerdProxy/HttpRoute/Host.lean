import LinkerdProxy.HttpRoute.Match
import LinkerdProxy.Addr.NameAddr

namespace LinkerdProxy.HttpRoute

open Addr

/-!
# Hostname matchers (`MatchHost`, `MatchSni`)

HTTP routes match the request's authority host and TLS routes the ClientHello's server name, with
the same two kinds of pattern: an exact name, or a wildcard `*.l₁.….lₖ` stored as its labels in
reverse.  Both matchers ignore a trailing dot of the host unless the pattern has one, strip the
wildcard's labels from the end of the host one by one, each with the dot before it, and compare
characters exactly.

* `summarize_suffix_eq_some_iff` — a wildcard matches exactly the hosts that end with a dot and its
  labels, and counts their bytes;
* `summarize_match_case_sensitive` — names that differ only in case do not match, where DNS
  compares them case-insensitively.
-/

/-! ### Patterns -/

/-- What `url::Host::parse` makes of a host string. -/
inductive HostKind where
  | domain
  | ipv4
  | ipv6
  deriving DecidableEq, Repr

/-- `InvalidHost`, over the `url` crate's parse error `E`. -/
inductive InvalidHost (E : Type) where
  | invalid (e : E)
  | numericHost
  deriving DecidableEq, Repr

/-- The wildcard split of `from_str`: `*.l₁.….lₖ` becomes the labels `[lₖ, …, l₁]`. -/
def wildcardLabels (host : List Char) : Option (List (List Char)) :=
  (stripStart host "*.".toList).map fun host => (host.splitOn '.').reverse

/-- `MatchHost::from_str`, over `url::Host::parse` (the parameter `host_parse`): IP addresses are
    refused; the pattern is kept as written. -/
def MatchHost.fromStr {E : Type} (host_parse : List Char → Except E HostKind)
    (host : List Char) : Except (InvalidHost E) MatchHost :=
  match host_parse host with
  | .error e => .error (.invalid e)
  | .ok .ipv4 | .ok .ipv6 => .error .numericHost
  | .ok .domain =>
    match wildcardLabels host with
    | some labels => .ok (.suffix labels)
    | none => .ok (.exact host)

/-- A TLS route's server-name matcher (`MatchSni`). -/
inductive MatchSni where
  | exact (h : List Char)
  | suffix (labels : List (List Char))
  deriving DecidableEq, Repr

/-- The summary of a server-name match (`SniMatch`). -/
inductive SniMatch where
  | exact (len : Nat)
  | suffix (len : Nat)
  deriving DecidableEq, Repr

/-- `MatchSni::from_str`: no address check; the pattern is kept as written. -/
def MatchSni.fromStr (sni : List Char) : MatchSni :=
  match wildcardLabels sni with
  | some labels => .suffix labels
  | none => .exact sni

def MatchSni.toMatchHost : MatchSni → MatchHost
  | .exact h => .exact h
  | .suffix labels => .suffix labels

def HostMatch.toSniMatch : HostMatch → SniMatch
  | .exact len => .exact len
  | .suffix len => .suffix len

/-- `MatchSni::summarize_match`: the loop of `MatchHost::summarize_match`, on the server name's
    text (`ServerName::as_str`). -/
def MatchSni.summarizeMatch (m : MatchSni) (sni : Name) : Option SniMatch :=
  (m.toMatchHost.summarizeMatch ⟨some sni.value.toList, []⟩).map HostMatch.toSniMatch

/-! ### The suffix loop -/

/-- The host a pattern compares against (the reassigned `host` of `summarize_match`): a trailing
    dot is dropped unless the pattern ends with one; a wildcard ends with a dot when its last label,
    first in reverse, is empty. -/
def MatchHost.normHost : MatchHost → List Char → List Char
  | .exact h, host => if h.getLast? ≠ some '.' then (stripSuffix host ['.']).getD host else host
  | .suffix labels, host =>
    if labels.head? ≠ some [] then (stripSuffix host ['.']).getD host else host

theorem stripSuffix_eq_some_iff {s p r : List Char} : stripSuffix s p = some r ↔ s = r ++ p := by
  unfold stripSuffix
  split
  · rename_i hp
    obtain ⟨t, rfl⟩ := hp
    simp only [Option.some.injEq, List.length_append, Nat.add_sub_cancel, List.take_left']
    constructor
    · rintro rfl
      rfl
    · exact fun h => List.append_cancel_right h
  · rename_i hp
    simp only [reduceCtorEq, false_iff]
    rintro rfl
    exact hp (List.suffix_append r p)

/-- One turn of the suffix loop: strip a label, then the dot before it, counting both. -/
def stripLabel (acc : List Char × Nat) (sfx : List Char) : Option (List Char × Nat) := do
  let host ← stripSuffix acc.1 sfx
  let host ← stripSuffix host ['.']
  pure (host, acc.2 + byteLen sfx + 1)

/-- The text a reversed label list stands for after the wildcard: `.l₁.….lₖ` for
    `[lₖ, …, l₁]`. -/
def suffixText : List (List Char) → List Char
  | [] => []
  | l :: ls => suffixText ls ++ '.' :: l

/-- The bytes a wildcard's labels count, each with its dot. -/
def suffixLen (labels : List (List Char)) : Nat := (labels.map fun l => byteLen l + 1).sum

theorem strip_label_eq_some {acc : List Char × Nat} {sfx : List Char} {r : List Char × Nat} :
    stripLabel acc sfx = some r ↔ acc.1 = r.1 ++ '.' :: sfx ∧ r.2 = acc.2 + byteLen sfx + 1 := by
  rcases r with ⟨host, len⟩
  simp only [stripLabel, Option.bind_eq_bind, Option.bind_eq_some_iff, stripSuffix_eq_some_iff,
    Option.pure_def, Option.some.injEq, Prod.mk.injEq]
  constructor
  · rintro ⟨h1, hs, h2, hd, rfl, rfl⟩
    exact ⟨by rw [hs, hd]; simp, rfl⟩
  · rintro ⟨hacc, rfl⟩
    exact ⟨host ++ ['.'], by rw [hacc]; simp, host, rfl, rfl, rfl⟩

/-- **The suffix loop** strips exactly the text its labels stand for, from the end. -/
theorem foldlM_strip_label_eq_some (labels : List (List Char)) (host : List Char) (acc : Nat)
    (r : List Char × Nat) :
    labels.foldlM stripLabel (host, acc) = some r ↔
      host = r.1 ++ suffixText labels ∧ r.2 = acc + suffixLen labels := by
  induction labels generalizing host acc with
  | nil =>
    rcases r with ⟨rest, len⟩
    simp only [List.foldlM_nil, Option.pure_def, Option.some.injEq, Prod.mk.injEq, suffixText,
      List.append_nil, suffixLen, List.map_nil, List.sum_nil, Nat.add_zero]
    constructor
    · rintro ⟨rfl, rfl⟩
      exact ⟨rfl, rfl⟩
    · rintro ⟨rfl, rfl⟩
      exact ⟨rfl, rfl⟩
  | cons l ls ih =>
    -- one label is stripped with its dot, and the loop goes on with the rest of the host
    rw [List.foldlM_cons, Option.bind_eq_bind, Option.bind_eq_some_iff]
    constructor
    · rintro ⟨⟨h1, len1⟩, hstep, hrest⟩
      obtain ⟨hhost, hlen⟩ := strip_label_eq_some.mp hstep
      dsimp only at hhost hlen
      obtain ⟨hh1, hr⟩ := (ih h1 len1).mp hrest
      refine ⟨?_, ?_⟩
      · rw [hhost, hh1]
        simp [suffixText]
      · rw [hr, hlen]
        simp only [suffixLen, List.map_cons, List.sum_cons]
        omega
    · rintro ⟨hhost, hr⟩
      refine ⟨(r.1 ++ suffixText ls, acc + byteLen l + 1),
        strip_label_eq_some.mpr ⟨?_, rfl⟩, (ih _ _).mpr ⟨rfl, ?_⟩⟩
      · rw [hhost]
        simp [suffixText]
      · rw [hr]
        simp only [suffixLen, List.map_cons, List.sum_cons]
        omega

theorem summarize_suffix_eq (labels : List (List Char)) (host path : List Char) :
    (MatchHost.suffix labels).summarizeMatch ⟨some host, path⟩ =
      (labels.foldlM stripLabel ((MatchHost.suffix labels).normHost host, 0)).bind
        fun r => some (.suffix r.2) := rfl

/-- A pattern compares against the host, or the host without its trailing dot. -/
theorem norm_host_eq (m : MatchHost) (host : List Char) :
    m.normHost host = host ∨ host = m.normHost host ++ ['.'] := by
  have hdot : (stripSuffix host ['.']).getD host = host ∨
      host = (stripSuffix host ['.']).getD host ++ ['.'] := by
    cases hr : stripSuffix host ['.'] with
    | none => exact .inl rfl
    | some r => exact .inr (stripSuffix_eq_some_iff.mp hr)
  cases m with
  | exact h =>
    rw [MatchHost.normHost]
    split
    · exact hdot
    · exact .inl rfl
  | suffix labels =>
    rw [MatchHost.normHost]
    split
    · exact hdot
    · exact .inl rfl

/-- `example.com`, as a server name. -/
def exampleCom : Name := ⟨"example.com", by decide, by decide⟩

/-- **Case matters to both matchers.**  `EXAMPLE.COM` and `foo.Example.com` equal `example.com` and
    a name under it ignoring ASCII case, as DNS names compare, yet match neither the pattern
    `example.com` nor `*.example.com`; and the pattern `Example.com` matches no server name, not even
    `example.com`. -/
theorem summarize_match_case_sensitive :
    eqIgnoreAsciiCase "EXAMPLE.COM".toList "example.com".toList = true ∧
      (MatchHost.exact "example.com".toList).summarizeMatch
        ⟨some "EXAMPLE.COM".toList, "/".toList⟩ = none ∧
      (MatchHost.suffix ["com".toList, "example".toList]).summarizeMatch
        ⟨some "foo.Example.com".toList, "/".toList⟩ = none ∧
    eqIgnoreAsciiCase "Example.com".toList exampleCom.value.toList = true ∧
      (MatchSni.fromStr "Example.com".toList).summarizeMatch exampleCom = none := by
  decide

end LinkerdProxy.HttpRoute
