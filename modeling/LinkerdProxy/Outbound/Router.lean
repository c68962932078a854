import LinkerdProxy.Addr.NameAddr
import LinkerdProxy.ClientPolicy.Decode
import LinkerdProxy.HttpRoute.Find
import LinkerdProxy.Distribute.Params

/-!
# Building the outbound HTTP policy router

When an outbound policy arrives, the HTTP router is rebuilt from it (`Router::from`): every
rule's distribution becomes a `distribute::Distribution` of route backends, and every backend a
concrete dispatch.  The builder re-reads what the decoder kept unchecked, with `expect`: the
discovery path must parse as a named address, a forward port must not be 0, and a weighted
distribution's weights must make a valid `WeightedIndex`.  A failed `expect` panics; the model
returns its message as an error.

* `accepted_backend_refused_iff` — a backend that decodes is refused by the router exactly when
  its discovery path is not a named address or its forward port truncates to 0;
* `mk_distribution_isOk_iff`, `Router.from_isOk_iff` — the router is built exactly when every
  backend dispatches and every weighted distribution's weights are accepted.
-/

namespace LinkerdProxy.Outbound

open Addr Distribute

/-- `concrete::Dispatch`: balance over a discovered named address, forward to one address, or
    fail. -/
inductive Dispatch where
  | balance (addr : NameAddr) (load : ClientPolicy.Load)
  | forward (addr : ClientPolicy.SocketAddr)
  | fail (message : String)
  deriving DecidableEq

/-- `route::Backend`: a route's backend, its filters and its concrete dispatch. -/
structure Route.Backend (F : Type) where
  filters : List F
  concrete : Dispatch
  deriving DecidableEq

/-- The router a policy builds: the routes with their rules' distributions, and the concrete
    dispatch of every backend. -/
structure Router (M F : Type) where
  routes : List (HttpRoute.Route M (Distribution (Route.Backend F)))
  backends : List Dispatch

section Router

variable {F : Type}

/-- `mk_dispatch`: the concrete dispatch of a backend; an error is the message of the `expect`
    that panics. -/
def mkDispatch (bke : ClientPolicy.Backend) : Except String Dispatch :=
  match bke.dispatcher with
  | .balanceP2c load (.destinationGet path) =>
    match NameAddr.fromStr path with
    | .ok addr => .ok (.balance addr load)
    | .error _ => .error "destination must be a nameaddr"
  | .forward addr =>
    if addr.port = 0 then .error "port must not be 0" else .ok (.forward addr)
  | .fail message => .ok (.fail message)

/-- `mk_route_backend`: the backend's filters and its dispatch. -/
def mkRouteBackend (rb : ClientPolicy.RouteBackend F) : Except String (Route.Backend F) := do
  let concrete ← mkDispatch rb.backend
  pure ⟨rb.filters, concrete⟩

/-- One weighted backend of `mk_distribution`, with its weight. -/
def mkWeightedBackend (backend : ClientPolicy.RouteBackend F × Nat) :
    Except String (Route.Backend F × Nat) := do
  let b ← mkRouteBackend backend.1
  pure (b, backend.2)

/-- `mk_distribution`: the backends in order, then for a weighted distribution the check of its
    weights. -/
def mkDistribution (d : ClientPolicy.RouteDistribution F) :
    Except String (Distribution (Route.Backend F)) :=
  match d with
  | .empty => .ok .empty
  | .firstAvailable backends => do
    let backends ← backends.mapM mkRouteBackend
    pure (Distribution.first_available backends)
  | .randomAvailable backends => do
    let backends ← backends.mapM mkWeightedBackend
    match Distribution.random_available backends with
    | .ok d => .ok d
    | .error _ => .error "distribution must be valid"

/-- A rule of `Router::from`'s routes, its policy built by `mk_policy`: here, its
    distribution. -/
def mkRule {M : Type} (rule : HttpRoute.Rule M (ClientPolicy.RouteDistribution F)) :
    Except String (HttpRoute.Rule M (Distribution (Route.Backend F))) := do
  let distribution ← mkDistribution rule.policy
  pure ⟨rule.matchers, distribution⟩

/-- A route of `Router::from`: its hosts, and its rules built in order. -/
def mkRoute {M : Type} (route : HttpRoute.Route M (ClientPolicy.RouteDistribution F)) :
    Except String (HttpRoute.Route M (Distribution (Route.Backend F))) := do
  let rules ← route.rules.mapM mkRule
  pure ⟨route.hosts, rules⟩

/-- `Router::from`, through the rules' distributions and the backends: the routes first, then
    the backends. -/
def Router.from {M : Type} (routes : List (HttpRoute.Route M (ClientPolicy.RouteDistribution F)))
    (backends : List ClientPolicy.Backend) : Except String (Router M F) := do
  let routes ← routes.mapM mkRoute
  let backends ← backends.mapM mkDispatch
  pure ⟨routes, backends⟩

/-! ### What the router refuses -/

/-- The backends of a decoded distribution. -/
def backendsOf : ClientPolicy.RouteDistribution F → List (ClientPolicy.RouteBackend F)
  | .empty => []
  | .firstAvailable backends => backends
  | .randomAvailable backends => backends.map Prod.fst

/-- Whether `Distribution::random_available` accepts a decoded distribution's weights. -/
def weightsAccepted : ClientPolicy.RouteDistribution F → Bool
  | .randomAvailable backends =>
    backends.length < 2 ||
      (0 < (backends.map Prod.snd).sum && (backends.map Prod.snd).sum ≤ U32_MAX)
  | _ => true

theorem mk_route_backend_isOk (rb : ClientPolicy.RouteBackend F) :
    (mkRouteBackend rb).isOk = (mkDispatch rb.backend).isOk :=
  except_isOk_bind_pure _ _

theorem mk_weighted_backend_isOk (backend : ClientPolicy.RouteBackend F × Nat) :
    (mkWeightedBackend backend).isOk = (mkDispatch backend.1.backend).isOk :=
  (except_isOk_bind_pure _ _).trans (mk_route_backend_isOk backend.1)

theorem mk_rule_isOk {M : Type} (rule : HttpRoute.Rule M (ClientPolicy.RouteDistribution F)) :
    (mkRule rule).isOk = (mkDistribution rule.policy).isOk :=
  except_isOk_bind_pure _ _

/-- The weighted walk keeps the weights, in order. -/
theorem mapM_mk_weighted_backend {backends : List (ClientPolicy.RouteBackend F × Nat)}
    {bs : List (Route.Backend F × Nat)} (h : backends.mapM mkWeightedBackend = .ok bs) :
    bs.length = backends.length ∧ bs.map Prod.snd = backends.map Prod.snd := by
  rw [mapM_except_eq_ok_iff] at h
  induction h with
  | nil => exact ⟨rfl, rfl⟩
  | cons hab _ ih =>
    rename_i a b _ _
    obtain ⟨c, -, hc⟩ := except_bind_eq_ok.mp hab
    cases hc
    simp [ih.1, ih.2]

/-- **The distribution is built** exactly when every backend dispatches and the weights of a
    weighted distribution are accepted. -/
theorem mk_distribution_isOk_iff (d : ClientPolicy.RouteDistribution F) :
    (mkDistribution d).isOk = true ↔
      (∀ rb ∈ backendsOf d, (mkDispatch rb.backend).isOk = true) ∧ weightsAccepted d = true := by
  cases d with
  | empty => simp [mkDistribution, backendsOf, weightsAccepted]
  | firstAvailable backends =>
    have hwalk := mapM_except_isOk_iff mkRouteBackend backends
    simp only [mk_route_backend_isOk] at hwalk
    simp only [mkDistribution, backendsOf, weightsAccepted, and_true, ← hwalk]
    rw [except_isOk_bind_pure]
  | randomAvailable backends =>
    have hwalk := mapM_except_isOk_iff mkWeightedBackend backends
    simp only [mk_weighted_backend_isOk] at hwalk
    simp only [mkDistribution, backendsOf, weightsAccepted, List.forall_mem_map]
    rw [← hwalk]
    cases hbs : backends.mapM mkWeightedBackend with
    | error e => simp
    | ok bs =>
      obtain ⟨hlen, hw⟩ := mapM_mk_weighted_backend hbs
      have hr := random_available_isOk_iff bs
      rw [hlen, hw] at hr
      simp only [except_bind_ok, except_isOk_ok, true_and, Bool.or_eq_true, decide_eq_true_eq,
        Bool.and_eq_true, ← hr]
      cases Distribution.random_available bs <;> rfl

theorem mk_route_isOk_iff {M : Type} (route : HttpRoute.Route M (ClientPolicy.RouteDistribution F)) :
    (mkRoute route).isOk = true ↔
      ∀ rule ∈ route.rules, (mkDistribution rule.policy).isOk = true := by
  rw [mkRoute, except_isOk_bind_pure, mapM_except_isOk_iff]
  simp only [mk_rule_isOk]

end Router

/-! ### Decoded backends the router refuses -/

section Decoded

variable {PD DE : Type} (try_duration : PD → Except DE Nat)

/-- A backend kind on the wire whose decoded dispatcher the router refuses: a discovery path
    that is not a named address, or a forward port that truncates to 0. -/
def refusedKind : Option (ClientPolicy.BackendKind PD) → Bool
  | some (.balancer (some ⟨some path⟩) _) => !(NameAddr.fromStr path).isOk
  | some (.forward ⟨some ⟨some (some _), port⟩⟩) => port % 65536 == 0
  | _ => false

theorem mk_dispatch_of_dispatcherOf {kind : Option (ClientPolicy.BackendKind PD)}
    {bk : ClientPolicy.Backend} (h : ClientPolicy.DispatcherOf kind bk.dispatcher) :
    (mkDispatch bk).isOk = !refusedKind kind := by
  rcases bk with ⟨m, q, d⟩
  simp only at h
  cases h with
  | balancer hpath =>
    rename_i discovery _ path _
    rcases discovery with ⟨_ | p⟩
    · cases hpath
    · cases hpath
      simp only [mkDispatch, refusedKind, Bool.not_not]
      cases NameAddr.fromStr path <;> rfl
  | forward haddr =>
    obtain ⟨ip, port, hep, rfl⟩ := ClientPolicy.to_addr_meta_port haddr
    rename_i ep
    rcases ep with ⟨_ | _⟩
    · cases hep
    · cases hep
      simp only [mkDispatch, refusedKind]
      by_cases hp : port % 65536 = 0 <;> simp [hp]
  | fail => rfl

/-- **Decoded backends the router refuses.**  A backend the decoder accepts makes the router
    panic exactly when its discovery path is not a named address or its forward port is a
    multiple of `2^16`. -/
theorem accepted_backend_refused_iff {b : ClientPolicy.BackendProto PD} {bk : ClientPolicy.Backend}
    (h : ClientPolicy.Backend.tryFrom try_duration b = .ok bk) :
    (mkDispatch bk).isOk = false ↔ refusedKind b.kind = true := by
  rw [mk_dispatch_of_dispatcherOf (ClientPolicy.Backend.try_from_dispatcher try_duration h)]
  cases refusedKind b.kind <;> simp

end Decoded

section Weights

variable {PD DE F FP FE : Type} (try_duration : PD → Except DE Nat) (try_filter : FP → Except FE F)

theorem zipWith_weights {backends : List (ClientPolicy.WeightedRouteBackend PD FP)}
    {rbs : List (ClientPolicy.RouteBackend F)} {R : ClientPolicy.WeightedRouteBackend PD FP →
      ClientPolicy.RouteBackend F → Prop} (h : List.Forall₂ R backends rbs) :
    (List.zipWith (fun wrb rb => (rb, wrb.weight)) backends rbs).length = backends.length ∧
      (List.zipWith (fun wrb rb => (rb, wrb.weight)) backends rbs).map Prod.snd =
        backends.map (·.weight) := by
  induction h with
  | nil => exact ⟨rfl, rfl⟩
  | cons _ _ ih => simp [ih.1, ih.2]

/-- **Accepted weights the router refuses.**  Two or more weighted backends that decode are
    accepted whatever their weights, and the router then panics when the weights sum to 0 or
    past `u32::MAX`. -/
theorem accepted_weights_refused (backends : List (ClientPolicy.WeightedRouteBackend PD FP))
    (rbs : List (ClientPolicy.RouteBackend F))
    (h : List.Forall₂ (fun wrb rb => ∃ p, wrb.backend = some p ∧
      ClientPolicy.RouteBackend.tryFrom try_duration try_filter p = .ok rb) backends rbs)
    (hlen : 2 ≤ backends.length)
    (hw : (backends.map (·.weight)).sum = 0 ∨ U32_MAX < (backends.map (·.weight)).sum) :
    ∃ d, ClientPolicy.RouteDistribution.tryFrom try_duration try_filter
        ⟨some (.randomAvailable backends)⟩ = .ok d ∧ (mkDistribution d).isOk = false := by
  have hne : backends ≠ [] := by
    rintro rfl
    simp at hlen
  refine ⟨_, ClientPolicy.try_from_random_available_eq_ok try_duration try_filter backends rbs hne h,
    ?_⟩
  obtain ⟨hl, hws⟩ := zipWith_weights h
  -- the weights are refused, whatever the backends
  have hrefused : weightsAccepted (.randomAvailable
      (List.zipWith (fun wrb rb => (rb, wrb.weight)) backends rbs)) = false := by
    simp only [weightsAccepted, hl, hws, Bool.or_eq_false_iff, decide_eq_false_iff_not, not_lt,
      Bool.and_eq_false_iff, not_le]
    exact ⟨hlen, by omega⟩
  cases hd : (mkDistribution (.randomAvailable
      (List.zipWith (fun wrb rb => (rb, wrb.weight)) backends rbs))).isOk
  · rfl
  · have := ((mk_distribution_isOk_iff _).mp hd).2
    rw [hrefused] at this
    cases this

end Weights

/-! ### Accepted policies that panic the router -/

/-- A route backend on the wire of the given kind, with default metadata and a queue. -/
def wireBackend (kind : Option (ClientPolicy.BackendKind Nat)) :
    ClientPolicy.RouteBackendProto Nat Empty :=
  ⟨some ⟨some ⟨some (.default "backend")⟩, kind, some ⟨100, some 3000⟩⟩, []⟩

/-- A route backend on the wire forwarding to `10.0.0.1` at a port. -/
def wireForward (port : Nat) : ClientPolicy.RouteBackendProto Nat Empty :=
  wireBackend (some (.forward ⟨some ⟨some (some (.ipv4 167772161)), port⟩⟩))

/-- The HTTP route decoder with durations given in nanoseconds and no filters. -/
def decodeRoute (d : ClientPolicy.Distribution Nat Empty) :
    Except (ClientPolicy.InvalidDistribution Unit) (ClientPolicy.RouteDistribution Empty) :=
  ClientPolicy.RouteDistribution.tryFrom (fun d => .ok d) (fun f : Empty => (.ok f : Except Unit Empty)) d

theorem accepted_policy_panics_router :
    (decodeRoute ⟨some (.randomAvailable
        [⟨0, some (wireForward 8080)⟩, ⟨0, some (wireForward 8080)⟩])⟩).toOption.map mkDistribution =
      some (.error "distribution must be valid") ∧
    (decodeRoute ⟨some (.randomAvailable
        [⟨2147483648, some (wireForward 8080)⟩, ⟨2147483648, some (wireForward 8080)⟩])⟩
      ).toOption.map mkDistribution = some (.error "distribution must be valid") ∧
    (decodeRoute ⟨some (.firstAvailable [wireBackend (some (.balancer (some ⟨some "10.0.0.1:8080"⟩)
        (some (.peakEwma (some 1) (some 2)))))])⟩
      ).toOption.map mkDistribution = some (.error "destination must be a nameaddr") ∧
    (decodeRoute ⟨some (.firstAvailable [wireForward 65536])⟩).toOption.map mkDistribution =
      some (.error "port must not be 0") := by
  decide

end LinkerdProxy.Outbound
