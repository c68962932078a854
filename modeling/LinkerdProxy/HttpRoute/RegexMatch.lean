import LinkerdProxy.Lib.Regex
import LinkerdProxy.HttpRoute.Match
import LinkerdProxy.Http.Upgrade

namespace LinkerdProxy.HttpRoute

open Http (HeaderName HeaderValue HeaderMap)

/-!
# Regex matchers anchored by hand (`http::r#match::{header, query_param, path}`)

Header, query-parameter and path matchers may hold a regex.  Each runs the regex crate's `find`
on the value and accepts when the match it returns starts at the value's start and ends at its
end.  `find` returns the leftmost-first match (`Regex.find`), so when a match of higher priority
ends early, the check fails although the regex matches the whole value.

* `anchored_regex_find_iff` — the check holds iff the highest-priority match at the start spans
  the value;
* `MatchHeader.is_match_regex_iff`, `MatchQueryParam.is_match_regex_iff`,
  `match_length_regex_eq` — the three matchers make this check on every value they read;
* `anchored_check_rejects_whole_match` — `a|ab` rejects the header value and the query value
  `ab`, and `/api|/api/v1` the path `/api/v1`, which they match as a whole.
-/

/-- `regex::Regex::find` on a `&str`: the leftmost-first match, as byte offsets. -/
def regexFind (re : Regex Char) (s : List Char) : Option (Nat × Nat) :=
  (Regex.find re s).map fun m => (byteLen (s.take m.1), byteLen (s.take m.2))

/-- The check the matchers make on a regex match: `m.start() == 0 && m.end() == h.len()`. -/
def anchored {Re : Type} (find : Re → List Char → Option (Nat × Nat)) (re : Re)
    (h : List Char) : Bool :=
  match find re h with
  | some (start, stop) => start == 0 && stop == byteLen h
  | none => false

/-- `MatchHeader`: a header's value equal to a given one, or matching a regex. -/
inductive MatchHeader (Re : Type) where
  | exact (n : HeaderName) (v : HeaderValue)
  | regex (n : HeaderName) (re : Re)

/-- `MatchHeader::is_match`: some value of the header is the given one, or, among the values that
    are text, one passes the regex check. -/
def MatchHeader.isMatch {Re : Type} (find : Re → List Char → Option (Nat × Nat))
    (m : MatchHeader Re) (headers : HeaderMap) : Bool :=
  match m with
  | .exact n v => (headers.get_all n).any (· == v)
  | .regex n re => ((headers.get_all n).filterMap HeaderValue.toStr).any (anchored find re)

/-- `MatchQueryParam`: a query parameter's value equal to a given one, or matching a regex. -/
inductive MatchQueryParam (Re : Type) where
  | exact (n v : List Char)
  | regex (n : List Char) (re : Re)

/-- `MatchQueryParam::is_match`, given the URI's query decoded by `form_urlencoded::parse` into
    its name-value pairs: some pair has the parameter's name, and the given value or a value that
    passes the regex check. -/
def MatchQueryParam.isMatch {Re : Type} (find : Re → List Char → Option (Nat × Nat))
    (m : MatchQueryParam Re) (query : Option (List (List Char × List Char))) : Bool :=
  match query with
  | none => false
  | some pairs =>
    pairs.any fun (q, p) =>
      match m with
      | .exact n v => n == q && v == p
      | .regex n r => if n == q then anchored find r p else false

/-! ### Byte offsets -/

theorem byteLen_eq_zero_iff {s : List Char} : byteLen s = 0 ↔ s = [] := by
  cases s with
  | nil => simp [byteLen]
  | cons c t =>
    have hc : 0 < c.utf8Size := Char.utf8Size_pos c
    simp only [byteLen, List.map_cons, List.sum_cons, reduceCtorEq, iff_false]
    omega

/-- A prefix has as many bytes as the whole string iff nothing is left after it. -/
theorem byteLen_take_eq_iff {s : List Char} {j : Nat} (hj : j ≤ s.length) :
    byteLen (s.take j) = byteLen s ↔ j = s.length := by
  have hsplit : byteLen (s.take j) + byteLen (s.drop j) = byteLen s := by
    rw [← byteLen_append, List.take_append_drop]
  have hdrop : byteLen (s.drop j) = 0 ↔ j = s.length := by
    rw [byteLen_eq_zero_iff, List.drop_eq_nil_iff]
    omega
  rw [← hdrop]
  omega

/-! ### The check against the regex -/

/-- **What the check decides.**  The byte offsets of the leftmost-first match are the value's
    start and end iff the highest-priority match at the start spans the value. -/
theorem anchored_regex_find_iff (re : Regex Char) (s : List Char) :
    anchored regexFind re s = true ↔ (re.ends s).head? = some s.length := by
  rw [← Regex.find_eq_some_zero_iff]
  unfold anchored regexFind
  cases hfind : Regex.find re s with
  | none => simp
  | some m =>
    obtain ⟨a, b⟩ := m
    obtain ⟨hab, hb⟩ := Regex.find_bounds hfind
    simp only [Option.map_some, beq_iff_eq, Bool.and_eq_true, Option.some.injEq, Prod.mk.injEq]
    rw [byteLen_take_eq_iff hb, byteLen_eq_zero_iff, List.take_eq_nil_iff]
    -- an empty value has its one match at the start
    constructor
    · rintro ⟨ha | rfl, rfl⟩
      · exact ⟨ha, rfl⟩
      · exact ⟨by simpa using hab, rfl⟩
    · rintro ⟨rfl, rfl⟩
      exact ⟨.inl rfl, rfl⟩

/-! ### The three matchers -/

/-- A header regex matcher accepts iff some text value of the header passes the check. -/
theorem MatchHeader.is_match_regex_iff (n : HeaderName) (re : Regex Char) (headers : HeaderMap) :
    (MatchHeader.regex n re).isMatch regexFind headers = true ↔
      ∃ v ∈ headers.get_all n, ∃ h, v.toStr = some h ∧ (re.ends h).head? = some h.length := by
  simp only [MatchHeader.isMatch, List.any_eq_true, List.mem_filterMap, anchored_regex_find_iff]
  constructor
  · rintro ⟨h, ⟨v, hv, hto⟩, hhead⟩
    exact ⟨v, hv, h, hto, hhead⟩
  · rintro ⟨v, hv, h, hto, hhead⟩
    exact ⟨h, ⟨v, hv, hto⟩, hhead⟩

/-- A query-parameter regex matcher accepts iff some decoded pair has the parameter's name and a
    value that passes the check. -/
theorem MatchQueryParam.is_match_regex_iff (n : List Char) (re : Regex Char)
    (pairs : List (List Char × List Char)) :
    (MatchQueryParam.regex n re).isMatch regexFind (some pairs) = true ↔
      ∃ p, (n, p) ∈ pairs ∧ (re.ends p).head? = some p.length := by
  simp only [MatchQueryParam.isMatch, List.any_eq_true, Prod.exists]
  constructor
  · rintro ⟨q, p, hmem, hcheck⟩
    by_cases hq : n = q
    · subst hq
      rw [beq_self_eq_true, if_pos rfl, anchored_regex_find_iff] at hcheck
      exact ⟨p, hmem, hcheck⟩
    · rw [if_neg (by simpa using hq)] at hcheck
      cases hcheck
  · rintro ⟨p, hmem, hhead⟩
    refine ⟨n, p, hmem, ?_⟩
    rw [beq_self_eq_true, if_pos rfl]
    exact (anchored_regex_find_iff re p).mpr hhead

/-- A path regex matcher makes the same check on the path. -/
theorem match_length_regex_eq {Re : Type} (find : Re → List Char → Option (Nat × Nat)) (re : Re)
    (uri : Uri) :
    (MatchPath.regex re).matchLength find uri =
      if anchored find re uri.path then some (.regex (byteLen uri.path)) else none := by
  -- the two matches on the regex's result agree for every result
  have hmatch : ∀ o : Option (Nat × Nat),
      (match o with
        | some (start, stop) =>
          if start = 0 ∧ stop = byteLen uri.path then some (PathMatch.regex (byteLen uri.path))
          else none
        | none => none) =
      if (match o with
          | some (start, stop) => start == 0 && stop == byteLen uri.path
          | none => false) = true then some (PathMatch.regex (byteLen uri.path)) else none := by
    intro o
    rcases o with _ | ⟨start, stop⟩
    · rfl
    · simp only [beq_iff_eq, Bool.and_eq_true]
  exact hmatch (find re uri.path)

/-! ### A whole match the check misses -/

/-- The regex `a|ab`. -/
def aOrAb : Regex Char := .alt (.str "a".toList) (.str "ab".toList)

/-- The regex `/api|/api/v1`. -/
def apiOrV1 : Regex Char := .alt (.str "/api".toList) (.str "/api/v1".toList)

/-- `x-route: ab`. -/
def abHeader : HeaderMap := ⟨[(⟨"x-route".toList, by decide⟩, ⟨[97, 98], by decide⟩)]⟩

/-- **A whole match the check misses.**  `a|ab` matches `ab` as a whole, yet its leftmost-first
    match there is `a`: a header matcher rejects the value `ab` and a query-parameter matcher the
    decoded value `ab`.  Likewise `/api|/api/v1` matches the path `/api/v1`, which a path matcher
    rejects. -/
theorem anchored_check_rejects_whole_match :
    "ab".toList ∈ aOrAb.lang ∧
      (MatchHeader.regex ⟨"x-route".toList, by decide⟩ aOrAb).isMatch regexFind abHeader =
        false ∧
      (MatchQueryParam.regex "q".toList aOrAb).isMatch regexFind
        (some [("q".toList, "ab".toList)]) = false ∧
    "/api/v1".toList ∈ apiOrV1.lang ∧
      (MatchPath.regex apiOrV1).matchLength regexFind ⟨none, "/api/v1".toList⟩ = none := by
  refine ⟨?_, by decide, by decide, ?_, by decide⟩
  · exact (Regex.mem_lang_iff_length_mem_ends _ _).mpr (by decide)
  · exact (Regex.mem_lang_iff_length_mem_ends _ _).mpr (by decide)

end LinkerdProxy.HttpRoute
