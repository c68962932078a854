import LinkerdProxy.HttpRoute.Match

namespace LinkerdProxy.HttpRoute

/-!
# Route selection (`linkerd_http_route::find`)

`find` (`http/route/src/lib.rs`) picks the route policy for a request: every route whose hosts
admit the request offers the best of its rules whose matchers admit it, keyed by the route's
host summary and the rule's match summary; the best offer wins.  Both `best`s keep the earlier
candidate on a tie, while the summaries of hosts and matchers are taken with `Iterator::max`,
which keeps the later one.

* `routeMatch_eq` — one route's offer is the first maximum of its applicable (route, rule) pairs;
* `find_selects_first_max` — `find` returns the first applicable pair, in (route, rule) order,
  whose key is the greatest key of all applicable pairs.
-/

/-- A summarized route match (`RouteMatch`): the host summary, then the rule's summary. -/
structure RouteMatch (T : Type) where
  host : Option HostMatch
  route : T
  deriving DecidableEq, Repr

/-- The derived `Ord for RouteMatch`: lexicographic over its fields. -/
instance {T : Type} [Ord T] : Ord (RouteMatch T) :=
  ⟨compareLex (compareOn RouteMatch.host) (compareOn RouteMatch.route)⟩

instance {T : Type} [Ord T] [Std.TransOrd T] : Std.TransOrd (RouteMatch T) :=
  inferInstanceAs (Std.TransCmp (compareLex (compareOn RouteMatch.host)
    (compareOn (RouteMatch.route (T := T)))))

/-- Under one host summary, route matches compare as their rule summaries. -/
theorem RouteMatch.compare_host_eq {T : Type} [Ord T] (h : Option HostMatch) (a b : T) :
    compare (RouteMatch.mk h a) (RouteMatch.mk h b) = compare a b := by
  have hh : compare h h = .eq := Std.ReflCmp.compare_self
  show (compare h h).then (compare a b) = compare a b
  rw [hh]
  rfl

/-- Policies for a set of request matches (`Rule`); its `matches`, a Lean keyword, are named
    `matchers` here. -/
structure Rule (M P : Type) where
  matchers : List M
  policy : P

/-- Routing rules under a common set of hostnames (`Route`). -/
structure Route (M P : Type) where
  hosts : List MatchHost
  rules : List (Rule M P)

/-- `best`: the first candidate with a greatest key. -/
def best {K Q : Type} [Ord K] (ms : List (K × Q)) : Option (K × Q) := firstMax ms

section Find

variable {M P S B : Type} [Ord S] [Inhabited S] (matchRequest : M → Request B → Option S)

/-- The summary of a rule in `find`: the implicit default match when it has no matchers, else
    the greatest summary of its matchers that admit the request. -/
def ruleMatch (req : Request B) (rule : Rule M P) : Option (S × P) :=
  if rule.matchers.isEmpty then some (default, rule.policy)
  else (lastMax (rule.matchers.filterMap (matchRequest · req))).map (·, rule.policy)

/-- The host summary of a route in `find`: `None` when it lists no hosts, else the greatest
    summary of its hosts that match (and no offer when none does). -/
def hostMatch (rt : Route M P) (uri : Uri) : Option (Option HostMatch) :=
  if rt.hosts.isEmpty then some none
  else (lastMax (rt.hosts.filterMap (·.summarizeMatch uri))).map some

/-- The offer of one route in `find`: its host summary with the best of its rules. -/
def routeMatch (req : Request B) (rt : Route M P) : Option (RouteMatch S × P) := do
  let host ← hostMatch rt req.uri
  let (route, policy) ← best (rt.rules.filterMap (ruleMatch matchRequest req))
  pure (⟨host, route⟩, policy)

/-- `find`: the best offer of all routes. -/
def find (routes : List (Route M P)) (req : Request B) : Option (RouteMatch S × P) :=
  best (routes.filterMap (routeMatch matchRequest req))

/-! ### The selection law -/

/-- A (route, rule) pair applies to a request when some host of the route matches (or it has
    none) and some matcher of the rule does (or it has none). -/
def Applicable (req : Request B) (rt : Route M P) (rule : Rule M P) : Prop :=
  (rt.hosts = [] ∨ ∃ h ∈ rt.hosts, (h.summarizeMatch req.uri).isSome) ∧
    (rule.matchers = [] ∨ ∃ m ∈ rule.matchers, (matchRequest m req).isSome)

/-- The host part of a pair's key: none when the route lists no hosts, else the greatest host
    summary; undefined when hosts are listed and none matches. -/
def hostKey (rt : Route M P) (uri : Uri) : Option (Option HostMatch) :=
  if rt.hosts = [] then some none
  else (lastMax (rt.hosts.filterMap (·.summarizeMatch uri))).map some

/-- The rule part of a pair's key: the default summary when the rule has no matchers, else the
    greatest matcher summary; undefined when matchers are listed and none matches. -/
def ruleKey (req : Request B) (rule : Rule M P) : Option S :=
  if rule.matchers = [] then some default
  else lastMax (rule.matchers.filterMap (matchRequest · req))

/-- The key of a (route, rule) pair. -/
def pairKey (req : Request B) (rt : Route M P) (rule : Rule M P) : Option (RouteMatch S) :=
  (hostKey rt req.uri).bind fun host => (ruleKey matchRequest req rule).map (RouteMatch.mk host)

/-- The applicable pairs of one route with their keys, in rule order. -/
def routePairs (req : Request B) (rt : Route M P) :
    List (RouteMatch S × (Route M P × Rule M P)) :=
  rt.rules.filterMap fun u => (pairKey matchRequest req rt u).map (·, (rt, u))

/-- All applicable pairs with their keys, in (route, rule) order. -/
def pairs (routes : List (Route M P)) (req : Request B) :
    List (RouteMatch S × (Route M P × Rule M P)) :=
  routes.flatMap (routePairs matchRequest req)

theorem hostKey_isSome_iff (rt : Route M P) (uri : Uri) :
    (hostKey rt uri).isSome ↔ rt.hosts = [] ∨ ∃ h ∈ rt.hosts, (h.summarizeMatch uri).isSome := by
  unfold hostKey
  by_cases hh : rt.hosts = []
  · simp [hh]
  · simp [hh, List.filterMap_eq_nil_iff, Option.isSome_iff_ne_none]

theorem ruleKey_isSome_iff (req : Request B) (rule : Rule M P) :
    (ruleKey matchRequest req rule).isSome ↔
      rule.matchers = [] ∨ ∃ m ∈ rule.matchers, (matchRequest m req).isSome := by
  unfold ruleKey
  by_cases hm : rule.matchers = []
  · simp [hm]
  · simp [hm, List.filterMap_eq_nil_iff, Option.isSome_iff_ne_none]

/-- A pair has a key exactly when it applies. -/
theorem pairKey_isSome_iff (req : Request B) (rt : Route M P) (rule : Rule M P) :
    (pairKey matchRequest req rt rule).isSome ↔ Applicable matchRequest req rt rule := by
  rw [Applicable, ← hostKey_isSome_iff, ← ruleKey_isSome_iff, pairKey]
  cases hostKey rt req.uri <;> cases ruleKey matchRequest req rule <;> simp

theorem mem_pairs {routes : List (Route M P)} {req : Request B} {k : RouteMatch S}
    {rt : Route M P} {u : Rule M P} :
    (k, (rt, u)) ∈ pairs matchRequest routes req ↔
      rt ∈ routes ∧ u ∈ rt.rules ∧ pairKey matchRequest req rt u = some k := by
  simp only [pairs, routePairs, List.mem_flatMap, List.mem_filterMap, Option.map_eq_some_iff,
    Prod.mk.injEq]
  constructor
  · rintro ⟨rt', hrt', u', hu', k', hk', rfl, rfl, rfl⟩
    exact ⟨hrt', hu', hk'⟩
  · rintro ⟨hrt, hu, hk⟩
    exact ⟨rt, hrt, u, hu, k, hk, rfl, rfl, rfl⟩

/-! ### The code computes the keys -/

/-- The code's host summary is the host part of the key. -/
theorem hostMatch_eq_hostKey (rt : Route M P) (uri : Uri) : hostMatch rt uri = hostKey rt uri := by
  simp only [hostMatch, hostKey, List.isEmpty_iff]

/-- The code's rule summary is the rule part of the key, with the rule's policy. -/
theorem ruleMatch_eq_ruleKey (req : Request B) (rule : Rule M P) :
    ruleMatch matchRequest req rule = (ruleKey matchRequest req rule).map (·, rule.policy) := by
  unfold ruleMatch ruleKey
  by_cases hm : rule.matchers = [] <;> simp [hm]

/-- The policy of a keyed pair. -/
def policyOf (x : RouteMatch S × (Route M P × Rule M P)) : RouteMatch S × P :=
  (x.1, x.2.2.policy)

/-- **One route.**  A route offers the first greatest of its applicable pairs.  Within a route
    every key shares the route's host summary, so keys compare as the rules' summaries and the
    route's `best` over rules is the first maximum over its pairs. -/
theorem routeMatch_eq (req : Request B) (rt : Route M P) :
    routeMatch matchRequest req rt =
      (firstMax (routePairs matchRequest req rt)).map policyOf := by
  -- the rules with their keys, before the host summary is attached
  let L : List (S × Rule M P) := rt.rules.filterMap fun u => (ruleKey matchRequest req u).map (·, u)
  have hrules : rt.rules.filterMap (ruleMatch matchRequest req) = L.map (Prod.map id Rule.policy) := by
    simp only [L, List.map_filterMap, ruleMatch_eq_ruleKey, Option.map_map]
    rfl
  unfold routeMatch
  rw [hostMatch_eq_hostKey]
  cases hh : hostKey rt req.uri with
  | none =>
    have hpairs : routePairs matchRequest req rt = [] := by
      simp [routePairs, pairKey, hh]
    rw [hpairs]
    rfl
  | some host =>
    have hpairs : routePairs matchRequest req rt = L.map (Prod.map (RouteMatch.mk host) (rt, ·)) := by
      simp only [L, routePairs, pairKey, hh, Option.bind_some, List.map_filterMap, Option.map_map]
      rfl
    have hbest : best (L.map (Prod.map id Rule.policy)) = (firstMax L).map (Prod.map id Rule.policy) :=
      firstMax_map id Rule.policy (fun _ _ => rfl) L
    have hkeyed : firstMax (L.map (Prod.map (RouteMatch.mk host) (rt, ·))) =
        (firstMax L).map (Prod.map (RouteMatch.mk host) (rt, ·)) :=
      firstMax_map _ _ (RouteMatch.compare_host_eq host) L
    rw [hrules, hbest, hpairs, hkeyed]
    cases firstMax L <;> rfl

section Selection

variable [Std.TransOrd S]

/-- **All routes.**  `find` returns the policy of the first greatest applicable pair: the
    route-by-route selection agrees with one selection over all pairs in (route, rule) order. -/
theorem find_eq_firstMax_pairs (routes : List (Route M P)) (req : Request B) :
    find matchRequest routes req = (firstMax (pairs matchRequest routes req)).map policyOf := by
  have hoffers : routes.filterMap (routeMatch matchRequest req) =
      ((routes.map (routePairs matchRequest req)).filterMap firstMax).map policyOf := by
    rw [List.map_filterMap, List.filterMap_map]
    congr 1
    funext rt
    exact routeMatch_eq matchRequest req rt
  have hpolicy : policyOf (S := S) (M := M) (P := P) = Prod.map id (fun q => q.2.policy) := rfl
  rw [find, best, hoffers, hpolicy, firstMax_map id _ (fun _ _ => rfl), firstMax_flatten, pairs,
    List.flatMap_def]

/-- **Route selection.**  `find` returns nothing exactly when no (route, rule) pair applies;
    otherwise it returns `(k, p)` exactly when, in the list of applicable pairs in (route, rule)
    order, some pair `(rt, u)` with policy `p` has key `k`, no key exceeds `k`, and every earlier
    key is strictly below `k`. -/
theorem find_selects_first_max (routes : List (Route M P)) (req : Request B) :
    (find matchRequest routes req = none ↔
      ∀ rt ∈ routes, ∀ u ∈ rt.rules, ¬Applicable matchRequest req rt u) ∧
    ∀ k p, find matchRequest routes req = some (k, p) ↔
      ∃ rt u l₁ l₂, pairs matchRequest routes req = l₁ ++ (k, (rt, u)) :: l₂ ∧ p = u.policy ∧
        (∀ y ∈ pairs matchRequest routes req, compare y.1 k ≠ .gt) ∧
        ∀ y ∈ l₁, compare y.1 k = .lt := by
  rw [find_eq_firstMax_pairs]
  constructor
  · -- no selection means no pair has a key
    rw [Option.map_eq_none_iff, firstMax_eq_none, List.eq_nil_iff_forall_not_mem]
    constructor
    · intro hnone rt hrt u hu happ
      obtain ⟨k, hk⟩ := Option.isSome_iff_exists.mp ((pairKey_isSome_iff matchRequest req rt u).mpr happ)
      exact hnone (k, (rt, u)) (mem_pairs matchRequest |>.mpr ⟨hrt, hu, hk⟩)
    · rintro hnone ⟨k, rt, u⟩ hmem
      obtain ⟨hrt, hu, hk⟩ := (mem_pairs matchRequest).mp hmem
      exact hnone rt hrt u hu ((pairKey_isSome_iff matchRequest req rt u).mp (by simp [hk]))
  · intro k p
    rw [Option.map_eq_some_iff]
    constructor
    · rintro ⟨⟨k', rt, u⟩, hmax, hx⟩
      simp only [policyOf, Prod.mk.injEq] at hx
      obtain ⟨rfl, rfl⟩ := hx
      obtain ⟨l₁, l₂, hsplit, hle, hlt⟩ := firstMax_eq_some_iff.mp hmax
      exact ⟨rt, u, l₁, l₂, hsplit, rfl, hle, hlt⟩
    · rintro ⟨rt, u, l₁, l₂, hsplit, rfl, hle, hlt⟩
      exact ⟨(k, (rt, u)), firstMax_eq_some_iff.mpr ⟨l₁, l₂, hsplit, hle, hlt⟩, rfl⟩

/-- The source's test `path_length_precedence`: of two host-less routes, the exact match of
    the whole path `/foo/bar` is selected over the prefix match `/foo`. -/
theorem find_selects_first_max_longer_path :
    let mr : MatchRequest Empty Empty Empty Unit → Request (HttpParts Unit Unit) →
        Option RequestMatch :=
      MatchRequest.matchRequest (fun e _ => e.elim) (fun e _ => e.elim) (fun e _ => e.elim)
    let routes : List (Route (MatchRequest Empty Empty Empty Unit) Bool) :=
      [⟨[], [⟨[⟨some (.prefixed "/foo".toList), [], [], none⟩], false⟩]⟩,
       ⟨[], [⟨[⟨some (.exact "/foo/bar".toList), [], [], none⟩], true⟩]⟩]
    let req : Request (HttpParts Unit Unit) :=
      ⟨⟨some "foo.example.com".toList, "/foo/bar".toList⟩, ⟨(), ()⟩⟩
    let k : RouteMatch RequestMatch := ⟨none, ⟨.exact 8, 0, 0, false⟩⟩
    ∃ rt u l₁ l₂, pairs mr routes req = l₁ ++ (k, (rt, u)) :: l₂ ∧ true = u.policy ∧
      (∀ y ∈ pairs mr routes req, compare y.1 k ≠ .gt) ∧ ∀ y ∈ l₁, compare y.1 k = .lt := by
  intro mr routes req k
  exact ((find_selects_first_max mr routes req).2 k true).mp (by decide)

end Selection

end Find

end LinkerdProxy.HttpRoute
