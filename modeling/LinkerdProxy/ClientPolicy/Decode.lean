import Mathlib.Data.List.Basic
import LinkerdProxy.Lib.Except

namespace LinkerdProxy.ClientPolicy

/-!
# Decoding outbound backends and distributions (`client_policy::proto`)

The client-policy crate turns the control plane's outbound policy messages into the proxy's
policy types.  A backend carries its metadata, a dispatcher (a balancer fed by endpoint
discovery, a single forwarded endpoint, or none), and a queue; a route distribution is empty, or
picks the first available of its backends, or picks at random among weighted backends.

The decoders check that the fields are present and well formed where they read them: metadata,
durations, the forward endpoint's address.  They keep the discovery path as a string, the weights
as given, and the forward port as truncated to 16 bits (`Decode.lean` does not look further;
`Router.lean` shows what the router then assumes).

* `Backend.try_from_dispatcher` — the dispatcher of a decoded backend, by its kind on the wire:
  the discovery path as it is, the forward address with its port truncated;
* `try_from_random_available_eq_ok` — a weighted distribution decodes whenever its backends do,
  whatever its weights.
-/

/-- `Meta` of client policies: a default name, or a Kubernetes resource reference. -/
inductive Meta where
  | default (name : String)
  | resource (group kind name ns : String) (sec : Option String) (port : Option Nat)
  deriving DecidableEq, Repr

/-- `Meta::kind`. -/
def Meta.kind : Meta → String
  | .default _ => "default"
  | .resource _ kind _ _ _ _ => kind

/-- `Meta::name`. -/
def Meta.name : Meta → String
  | .default name => name
  | .resource _ _ name _ _ _ => name

/-- `Meta::namespace` (a Lean keyword, hence the name). -/
def Meta.ns : Meta → String
  | .default _ => ""
  | .resource _ _ _ ns _ _ => ns

/-- `meta::Metadata` on the wire. -/
inductive MetadataKind where
  | default (name : String)
  | resource (group kind name ns sec : String) (port : Nat)
  deriving DecidableEq, Repr

structure Metadata where
  kind : Option MetadataKind
  deriving DecidableEq, Repr

/-- `InvalidMeta`, with its message. -/
structure InvalidMeta where
  message : String
  deriving DecidableEq, Repr

/-- `TryFrom<meta::Metadata> for Meta`: a kind is required, and a resource's group, kind, name
    and namespace must not be empty; an empty section is none, and a port is kept when it is a
    non-zero `u16`. -/
def Meta.tryFrom (proto : Metadata) : Except InvalidMeta Meta :=
  match proto.kind with
  | none => .error ⟨"missing kind"⟩
  | some (.default name) => .ok (.default name)
  | some (.resource group kind name ns sec port) =>
    if group.isEmpty then .error ⟨"group must not be empty"⟩
    else if kind.isEmpty then .error ⟨"kind must not be empty"⟩
    else if name.isEmpty then .error ⟨"name must not be empty"⟩
    else if ns.isEmpty then .error ⟨"namespace must not be empty"⟩
    else
      let sec := if sec.isEmpty then none else some sec
      let port := if port < 65536 ∧ port ≠ 0 then some port else none
      .ok (.resource group kind name ns sec port)

/-! ### Endpoints -/

/-- An IP address on the wire (`ip_address::Ip`). -/
inductive Ip where
  | ipv4 (octets : Nat)
  | ipv6 (first last : Nat)
  deriving DecidableEq, Repr

/-- `TcpAddress` on the wire: the port is a `u32`. -/
structure TcpAddress where
  ip : Option (Option Ip)
  port : Nat
  deriving DecidableEq, Repr

/-- A socket address: the IP and a `u16` port. -/
structure SocketAddr where
  ip : Ip
  port : Nat
  deriving DecidableEq, Repr

/-- `to_sock_addr`: an address needs an IP; its port is cast `as u16`. -/
def toSockAddr (pb : TcpAddress) : Option SocketAddr :=
  match pb.ip with
  | some (some ip) => some ⟨ip, pb.port % 65536⟩
  | _ => none

/-- `WeightedAddr` on the wire, through what decides whether it decodes: its address. -/
structure WeightedAddr where
  addr : Option TcpAddress
  deriving DecidableEq, Repr

/-- `to_addr_meta`, through its address: `None` without one. -/
def toAddrMeta (pb : WeightedAddr) : Option SocketAddr := pb.addr.bind toSockAddr

/-! ### Backends -/

section Backend

-- protobuf durations `PD`, converted by `prost_types`' `TryFrom` with errors `DE`
variable {PD DE : Type} (try_duration : PD → Except DE Nat)

/-- `EndpointDiscovery` on the wire. -/
structure EndpointDiscoveryProto where
  kind : Option String
  deriving DecidableEq, Repr

/-- `EndpointDiscovery`: a `Destination.Get` lookup of a path. -/
inductive EndpointDiscovery where
  | destinationGet (path : String)
  deriving DecidableEq, Repr

/-- `InvalidDiscovery`. -/
inductive InvalidDiscovery where
  | missing
  deriving DecidableEq, Repr

/-- `TryFrom<EndpointDiscovery>`: the path is kept as it is. -/
def EndpointDiscovery.tryFrom (proto : EndpointDiscoveryProto) :
    Except InvalidDiscovery EndpointDiscovery :=
  match proto.kind with
  | none => .error .missing
  | some path => .ok (.destinationGet path)

/-- The balancer's load estimator on the wire. -/
inductive LoadProto (PD : Type) where
  | peakEwma (default_rtt decay : Option PD)
  | penaltyPeakEwma (default_rtt decay penalty max_retry_after penalty_decay : Option PD)
  deriving DecidableEq, Repr

/-- `Load`, with durations in nanoseconds. -/
inductive Load where
  | peakEwma (default_rtt decay : Nat)
  | penaltyPeakEwma (default_rtt decay penalty penalty_decay max_retry_after : Nat)
  deriving DecidableEq, Repr

/-- The backend's kind on the wire. -/
inductive BackendKind (PD : Type) where
  | balancer (discovery : Option EndpointDiscoveryProto) (load : Option (LoadProto PD))
  | forward (ep : WeightedAddr)
  deriving DecidableEq, Repr

/-- `backend::Queue` on the wire. -/
structure QueueProto (PD : Type) where
  capacity : Nat
  failfast_timeout : Option PD
  deriving DecidableEq, Repr

/-- `outbound::Backend` on the wire. -/
structure BackendProto (PD : Type) where
  metadata : Option Metadata
  kind : Option (BackendKind PD)
  queue : Option (QueueProto PD)
  deriving DecidableEq, Repr

/-- `BackendDispatcher`. -/
inductive BackendDispatcher where
  | forward (addr : SocketAddr)
  | balanceP2c (load : Load) (discovery : EndpointDiscovery)
  | fail (message : String)
  deriving DecidableEq, Repr

/-- `Queue`. -/
structure Queue where
  capacity : Nat
  failfast_timeout : Nat
  deriving DecidableEq, Repr

/-- `Backend`; its `meta`, a Lean keyword, is named `metadata` here. -/
structure Backend where
  metadata : Meta
  queue : Queue
  dispatcher : BackendDispatcher
  deriving DecidableEq, Repr

/-- `InvalidBackend`, with the field names the decoder reports. -/
inductive InvalidBackend (DE : Type) where
  | filter
  | missing (field : String)
  | duration (field : String) (error : DE)
  | forwardAddr
  | discovery (error : InvalidDiscovery)
  | metadata (error : InvalidMeta)
  deriving DecidableEq, Repr

/-- `duration`: a required duration. -/
def duration (field : String) (d : Option PD) : Except (InvalidBackend DE) Nat := do
  let d ← okOr d (.missing field)
  (try_duration d).mapError (.duration field)

/-- `duration_or`: an optional duration with a default. -/
def durationOr (field : String) (d : Option PD) (default : Nat) : Except (InvalidBackend DE) Nat :=
  match d with
  | none => .ok default
  | some d => (try_duration d).mapError (.duration field)

/-- Milliseconds and seconds, in nanoseconds. -/
def millis (n : Nat) : Nat := n * 1000000

def secs (n : Nat) : Nat := n * 1000000000

/-- The balancer's load estimator (the `Load` arm of `TryFrom<outbound::Backend>`). -/
def Load.tryFrom (load : LoadProto PD) : Except (InvalidBackend DE) Load :=
  match load with
  | .peakEwma default_rtt decay => do
    let default_rtt ← duration try_duration "peak EWMA default RTT" default_rtt
    let decay ← duration try_duration "peak EWMA decay" decay
    pure (.peakEwma default_rtt decay)
  | .penaltyPeakEwma default_rtt decay penalty max_retry_after penalty_decay => do
    let default_rtt ← durationOr try_duration "penalty peak EWMA default RTT" default_rtt (millis 30)
    let decay ← durationOr try_duration "penalty peak EWMA decay" decay (secs 10)
    let penalty ← durationOr try_duration "penalty peak EWMA penalty" penalty (secs 5)
    let penalty_decay ←
      durationOr try_duration "penalty peak EWMA penalty decay" penalty_decay (secs 10)
    let max_retry_after ←
      durationOr try_duration "penalty peak EWMA max retry-after" max_retry_after (secs 300)
    pure (.penaltyPeakEwma default_rtt decay penalty penalty_decay max_retry_after)

/-- The message of a backend without a dispatcher. -/
def noDispatcherMessage (m : Meta) : String :=
  "backend for " ++ m.kind ++ " " ++ m.ns ++ (if m.ns != "" then "/" else "") ++ m.name ++
    " has no dispatcher"

/-- The dispatcher of `TryFrom<outbound::Backend>`, by the backend's kind: a balancer needs its
    discovery and its load; a forward needs an address; a backend with neither fails its
    requests. -/
def backendDispatcher (m : Meta) (kind : Option (BackendKind PD)) :
    Except (InvalidBackend DE) BackendDispatcher :=
  match kind with
  | some (.balancer discovery load) => do
    let discovery ← okOr discovery (.missing "balancer discovery")
    let discovery ← (EndpointDiscovery.tryFrom discovery).mapError .discovery
    let load ← okOr load (.missing "balancer load")
    let load ← Load.tryFrom try_duration load
    pure (.balanceP2c load discovery)
  | some (.forward ep) => do
    let addr ← okOr (toAddrMeta ep) .forwardAddr
    pure (.forward addr)
  | none => pure (.fail (noDispatcherMessage m))

/-- `TryFrom<outbound::Backend> for Backend`: the metadata, then the dispatcher, then the
    queue. -/
def Backend.tryFrom (backend : BackendProto PD) : Except (InvalidBackend DE) Backend := do
  let m ← okOr backend.metadata (.missing "backend metadata")
  let m ← (Meta.tryFrom m).mapError .metadata
  let dispatcher ← backendDispatcher try_duration m backend.kind
  let queue ← okOr backend.queue (.missing "queue")
  let failfast_timeout ← duration try_duration "queue failfast timeout" queue.failfast_timeout
  pure ⟨m, ⟨queue.capacity, failfast_timeout⟩, dispatcher⟩

/-- The dispatcher the decoder makes of a backend's kind on the wire. -/
inductive DispatcherOf : Option (BackendKind PD) → BackendDispatcher → Prop
  | balancer {discovery : EndpointDiscoveryProto} {lp : Option (LoadProto PD)} {path : String}
      {load : Load} : discovery.kind = some path →
      DispatcherOf (some (.balancer (some discovery) lp)) (.balanceP2c load (.destinationGet path))
  | forward {ep : WeightedAddr} {addr : SocketAddr} :
      toAddrMeta ep = some addr → DispatcherOf (some (.forward ep)) (.forward addr)
  | fail {message : String} : DispatcherOf none (.fail message)

/-- The dispatcher of a decoded backend is made from its kind alone: a balancer keeps the
    discovery path as it is, and a forward keeps the address `to_addr_meta` makes. -/
theorem backend_dispatcher_eq_ok {m : Meta} {kind : Option (BackendKind PD)}
    {d : BackendDispatcher} (h : backendDispatcher try_duration m kind = .ok d) :
    DispatcherOf kind d := by
  unfold backendDispatcher at h
  rcases kind with _ | ⟨_ | ⟨_ | path⟩, _ | lp⟩ | ep
  · cases h
    exact .fail
  · simp at h
  · simp at h
  · simp [EndpointDiscovery.tryFrom] at h
  · simp [EndpointDiscovery.tryFrom] at h
  · simp only [ok_or_none, except_bind_error, ok_or_some, EndpointDiscovery.tryFrom,
      except_mapError_ok, except_bind_ok] at h
    cases h
  · simp only [ok_or_some, EndpointDiscovery.tryFrom, except_mapError_ok, except_bind_ok] at h
    obtain ⟨load, -, h⟩ := except_bind_eq_ok.mp h
    cases h
    exact .balancer rfl
  · obtain ⟨addr, haddr, h⟩ := except_bind_eq_ok.mp h
    cases h
    cases hep : toAddrMeta ep with
    | none => rw [hep] at haddr; cases haddr
    | some a => rw [hep] at haddr; cases haddr; exact .forward hep

/-- The dispatcher of a decoded backend is made from its kind alone: a balancer keeps the
    discovery path as it is, and a forward keeps the address `to_addr_meta` makes. -/
theorem Backend.try_from_dispatcher {b : BackendProto PD} {bk : Backend}
    (h : Backend.tryFrom try_duration b = .ok bk) : DispatcherOf b.kind bk.dispatcher := by
  unfold Backend.tryFrom at h
  obtain ⟨mp, -, h⟩ := except_bind_eq_ok.mp h
  obtain ⟨m, -, h⟩ := except_bind_eq_ok.mp h
  obtain ⟨d, hd, h⟩ := except_bind_eq_ok.mp h
  obtain ⟨q, -, h⟩ := except_bind_eq_ok.mp h
  obtain ⟨t, -, h⟩ := except_bind_eq_ok.mp h
  cases h
  exact backend_dispatcher_eq_ok try_duration hd

/-- A forward address keeps the wire port modulo `2^16`, the cast `as u16`. -/
theorem to_addr_meta_port {ep : WeightedAddr} {addr : SocketAddr} (h : toAddrMeta ep = some addr) :
    ∃ ip port, ep.addr = some ⟨some (some ip), port⟩ ∧ addr = ⟨ip, port % 65536⟩ := by
  rcases ep with ⟨_ | ⟨_ | _ | ip, port⟩⟩ <;> simp [toAddrMeta, toSockAddr] at h
  exact ⟨ip, port, rfl, h.symm⟩

/-! ### Route distributions -/

section Distribution

-- route filters `F` on the wire as `FP`, decoded by `try_filter` with errors `FE`
variable {F FP FE : Type} (try_filter : FP → Except FE F)

/-- `RouteBackend` on the wire. -/
structure RouteBackendProto (PD FP : Type) where
  backend : Option (BackendProto PD)
  filters : List FP
  deriving DecidableEq, Repr

/-- `RouteBackend`: a backend with the filters applied on the way to it. -/
structure RouteBackend (F : Type) where
  filters : List F
  backend : Backend
  deriving DecidableEq, Repr

/-- `RouteBackend::try_from_proto`: the backend, then its filters; a filter's error is boxed. -/
def RouteBackend.tryFromProto (backend : BackendProto PD) (filters : List FP) :
    Except (InvalidBackend DE) (RouteBackend F) := do
  let backend ← Backend.tryFrom try_duration backend
  let filters ← (filters.mapM try_filter).mapError fun _ => .filter
  pure ⟨filters, backend⟩

/-- `TryFrom<http_route::RouteBackend>`: the backend must be present. -/
def RouteBackend.tryFrom (rb : RouteBackendProto PD FP) :
    Except (InvalidBackend DE) (RouteBackend F) :=
  match rb.backend with
  | none => .error (.missing "backend")
  | some backend => RouteBackend.tryFromProto try_duration try_filter backend rb.filters

/-- `WeightedRouteBackend` on the wire: a `u32` weight. -/
structure WeightedRouteBackend (PD FP : Type) where
  weight : Nat
  backend : Option (RouteBackendProto PD FP)
  deriving DecidableEq, Repr

/-- The distribution's kind on the wire. -/
inductive DistributionKind (PD FP : Type) where
  | empty
  | randomAvailable (backends : List (WeightedRouteBackend PD FP))
  | firstAvailable (backends : List (RouteBackendProto PD FP))
  deriving DecidableEq, Repr

/-- `http_route::Distribution` on the wire. -/
structure Distribution (PD FP : Type) where
  kind : Option (DistributionKind PD FP)
  deriving DecidableEq, Repr

/-- `RouteDistribution`. -/
inductive RouteDistribution (F : Type) where
  | empty
  | firstAvailable (backends : List (RouteBackend F))
  | randomAvailable (backends : List (RouteBackend F × Nat))
  deriving DecidableEq, Repr

/-- `InvalidDistribution`. -/
inductive InvalidDistribution (DE : Type) where
  | backend (error : InvalidBackend DE)
  | empty (kind : String)
  | missing
  | missingBackend
  deriving DecidableEq, Repr

/-- One weighted backend of a `RandomAvailable` distribution, with its weight as given. -/
def decodeWeighted (wrb : WeightedRouteBackend PD FP) :
    Except (InvalidDistribution DE) (RouteBackend F × Nat) :=
  match wrb.backend with
  | none => .error .missingBackend
  | some rb => ((RouteBackend.tryFrom try_duration try_filter rb).mapError .backend).map (·, wrb.weight)

/-- `TryFrom<http_route::Distribution> for RouteDistribution`: a kind is required, and a
    `RandomAvailable` or `FirstAvailable` distribution must have backends, each of which must
    decode. -/
def RouteDistribution.tryFrom (distribution : Distribution PD FP) :
    Except (InvalidDistribution DE) (RouteDistribution F) :=
  match distribution.kind with
  | none => .error .missing
  | some .empty => .ok .empty
  | some (.randomAvailable backends) => do
    let backends ← backends.mapM (decodeWeighted try_duration try_filter)
    if backends.isEmpty then .error (.empty "RandomAvailable")
    else pure (.randomAvailable backends)
  | some (.firstAvailable backends) => do
    let backends ← (backends.mapM (RouteBackend.tryFrom try_duration try_filter)).mapError .backend
    if backends.isEmpty then .error (.empty "FirstAvailable")
    else pure (.firstAvailable backends)

theorem decodeWeighted_eq_ok {wrb : WeightedRouteBackend PD FP} {p : RouteBackendProto PD FP}
    {rb : RouteBackend F} (hb : wrb.backend = some p)
    (h : RouteBackend.tryFrom try_duration try_filter p = .ok rb) :
    decodeWeighted try_duration try_filter wrb = .ok (rb, wrb.weight) := by
  simp [decodeWeighted, hb, h]

/-- **Weights are not checked.**  A weighted distribution with backends decodes whenever each of
    its backends does, and keeps the weights as they are on the wire, zero or not. -/
theorem try_from_random_available_eq_ok (backends : List (WeightedRouteBackend PD FP))
    (rbs : List (RouteBackend F)) (hne : backends ≠ [])
    (h : List.Forall₂ (fun wrb rb => ∃ p, wrb.backend = some p ∧
      RouteBackend.tryFrom try_duration try_filter p = .ok rb) backends rbs) :
    RouteDistribution.tryFrom try_duration try_filter ⟨some (.randomAvailable backends)⟩ =
      .ok (.randomAvailable (List.zipWith (fun wrb rb => (rb, wrb.weight)) backends rbs)) := by
  have hwalk : backends.mapM (decodeWeighted try_duration try_filter) =
      .ok (List.zipWith (fun wrb rb => (rb, wrb.weight)) backends rbs) := by
    clear hne
    rw [mapM_except_eq_ok_iff]
    induction h with
    | nil => exact .nil
    | cons hab _ ih =>
      obtain ⟨p, hp, hrb⟩ := hab
      exact .cons (decodeWeighted_eq_ok try_duration try_filter hp hrb) ih
  -- the decoded list is as long as the wire's, so not empty
  have hrbs : rbs ≠ [] := by
    rintro rfl
    exact hne (List.forall₂_nil_right_iff.mp h)
  simp [RouteDistribution.tryFrom, hwalk, hne, hrbs]

end Distribution

end Backend

end LinkerdProxy.ClientPolicy
