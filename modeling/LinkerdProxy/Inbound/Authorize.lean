import Mathlib.Data.List.Basic

namespace LinkerdProxy.Inbound

/-!
# Inbound connection authorization (`inbound::policy`)

A server policy lists, for protocols carried over plain TCP connections, the authorizations that
admit a connection: one of its networks contains the client's address (outside that network's
exceptions), and the connection's TLS satisfies its authentication.  `check_authorized` permits a
connection by the first authorization that admits it.

* `is_authorized_iff` — admission unfolded: a network of the authorization contains the client
  and excludes it in none of its exceptions, and the TLS state meets its authentication;
* `check_authorized_eq_ok_iff` — a permit names the first admitting authorization, and exists
  only for the protocols with TCP authorizations.
-/

/-- A client identity (`id::Id`), by kind, with its string form. -/
inductive Id where
  | dns (name : String)
  | uri (url : String)
  deriving DecidableEq, Repr

/-- `Id::to_str`. -/
def Id.toStr : Id → String
  | .dns name => name
  | .uri url => url

/-- An identity suffix (`Suffix`). -/
structure Suffix where
  ends_with : String
  deriving DecidableEq, Repr

/-- `Suffix::contains`. -/
def Suffix.contains (s : Suffix) (name : String) : Bool := name.endsWith s.ends_with

/-- `Authentication`: none required, any TLS, or TLS with an identity in the list or, for DNS
    identities, under one of the suffixes. -/
inductive Authentication where
  | unauthenticated
  | tlsUnauthenticated
  | tlsAuthenticated (identities : List String) (suffixes : List Suffix)
  deriving DecidableEq, Repr

/-- Why a connection has no TLS (`NoServerTls`). -/
inductive NoServerTls where
  | disabled
  | loopback
  | portSkipped
  | noClientHello
  deriving DecidableEq, Repr

/-- `ServerTls`: a terminated TLS session, with the client's identity if it sent one, or a
    session passed through by SNI. -/
inductive ServerTls where
  | established (client_id : Option Id)
  | passthru (sni : String)
  deriving DecidableEq, Repr

/-- `ConditionalServerTls`. -/
inductive ConditionalServerTls where
  | some (tls : ServerTls)
  | none (reason : NoServerTls)
  deriving DecidableEq, Repr

section Authorize

-- client addresses `Addr` and networks `Net`, with `net_contains` for `IpNet::contains`
variable {Addr Net : Type} (net_contains : Net → Addr → Bool)

/-- A network with exceptions (`Network`). -/
structure Network (Net : Type) where
  net : Net
  except : List Net
  deriving DecidableEq, Repr

/-- `Network::contains`. -/
def Network.contains (n : Network Net) (ip : Addr) : Bool :=
  net_contains n.net ip && !n.except.any (net_contains · ip)

/-- `Authorization`; its `meta`, a Lean keyword, is named `metadata` here. -/
structure Authorization (Net M : Type) where
  networks : List (Network Net)
  authentication : Authentication
  metadata : M
  deriving DecidableEq, Repr

/-- `is_tls_authorized`. -/
def isTlsAuthorized {M : Type} (tls : ConditionalServerTls) (authz : Authorization Net M) :
    Bool :=
  match authz.authentication with
  | .unauthenticated => true
  | .tlsUnauthenticated =>
    match tls with
    | .some (.established _) => true
    | _ => false
  | .tlsAuthenticated identities suffixes =>
    match tls with
    | .some (.established (some id)) =>
      match id with
      | .uri _ => decide (id.toStr ∈ identities)
      -- only DNS identities may match a suffix
      | .dns _ => decide (id.toStr ∈ identities) || suffixes.any (·.contains id.toStr)
    | _ => false

/-- `is_authorized`: the client is in one of the networks and the TLS state is authorized. -/
def isAuthorized {M : Type} (authz : Authorization Net M) (client_addr : Addr)
    (tls : ConditionalServerTls) : Bool :=
  if !authz.networks.any (·.contains net_contains client_addr) then false
  else isTlsAuthorized tls authz

/-- **Admission.**  An authorization admits a connection exactly when one of its networks
    contains the client address outside all of that network's exceptions, and the connection's
    TLS state meets the authentication it asks for. -/
theorem is_authorized_iff {M : Type} (a : Authorization Net M) (ip : Addr)
    (tls : ConditionalServerTls) :
    isAuthorized net_contains a ip tls = true ↔
      (∃ n ∈ a.networks, net_contains n.net ip = true ∧ ∀ e ∈ n.except, net_contains e ip = false) ∧
      (a.authentication = .unauthenticated ∨
        (a.authentication = .tlsUnauthenticated ∧ ∃ cid, tls = .some (.established cid)) ∨
        ∃ ids sfx cid, a.authentication = .tlsAuthenticated ids sfx ∧
          tls = .some (.established (some cid)) ∧
          (cid.toStr ∈ ids ∨ (∃ name, cid = .dns name) ∧ ∃ s ∈ sfx, s.contains cid.toStr)) := by
  have hnet : (a.networks.any (·.contains net_contains ip)) = true ↔
      ∃ n ∈ a.networks, net_contains n.net ip = true ∧ ∀ e ∈ n.except, net_contains e ip = false := by
    simp [Network.contains]
  unfold isAuthorized
  by_cases hn : (a.networks.any (·.contains net_contains ip)) = true
  · rw [if_neg (by simp [hn]), ← hnet, iff_true_intro hn, true_and]
    unfold isTlsAuthorized
    cases hauth : a.authentication with
    | unauthenticated => simp
    | tlsUnauthenticated =>
      cases tls with
      | some t => cases t <;> simp
      | none r => simp
    | tlsAuthenticated ids sfx =>
      cases tls with
      | some t =>
        cases t with
        | established cid =>
          cases cid with
          | none => simp
          | some id => cases id <;> simp
        | passthru sni => simp
      | none r => simp
  · rw [if_pos (by simpa using hn)]
    simp only [Bool.false_eq_true, false_iff, not_and]
    intro h
    exact absurd (hnet.mpr h) hn

/-- The server's protocol (`Protocol`), through what authorization reads of it: the TCP
    authorizations of the protocols that carry plain connections.  The last variant's name in the
    source is a Lean keyword: it is named `opaq` here, as the proxy names its modules for it. -/
inductive Protocol (Net M : Type) where
  | detect (tcpAuthorizations : List (Authorization Net M))
  | http1
  | http2
  | grpc
  | tls (authzs : List (Authorization Net M))
  | opaq (authzs : List (Authorization Net M))
  deriving DecidableEq, Repr

/-- `ServerPolicy`; its `meta` is named `metadata` here. -/
structure ServerPolicy (Net M : Type) where
  protocol : Protocol Net M
  metadata : M
  deriving DecidableEq, Repr

/-- `ServerPermit`: the destination, the protocol, and the labels of the server and of the
    authorization that permitted the connection. -/
structure ServerPermit (D Net M : Type) where
  dst : D
  protocol : Protocol Net M
  authz : M
  server : M
  deriving DecidableEq, Repr

/-- `ServerUnauthorized`: the label of the server that denied the connection. -/
structure ServerUnauthorized (M : Type) where
  server : M
  deriving DecidableEq, Repr

/-- `ServerPermit::new`. -/
def ServerPermit.new {D M : Type} (dst : D) (server : ServerPolicy Net M)
    (authz : Authorization Net M) : ServerPermit D Net M :=
  ⟨dst, server.protocol, authz.metadata, server.metadata⟩

/-- The TCP authorizations of a protocol, if it has any. -/
def tcpAuthorizations {M : Type} : Protocol Net M → Option (List (Authorization Net M))
  | .detect authzs | .tls authzs | .opaq authzs => some authzs
  | .http1 | .http2 | .grpc => none

/-- `check_authorized`: the first authorization that admits the connection permits it. -/
def checkAuthorized {D M : Type} (server : ServerPolicy Net M) (dst : D) (client_addr : Addr)
    (tls : ConditionalServerTls) : Except (ServerUnauthorized M) (ServerPermit D Net M) :=
  match tcpAuthorizations server.protocol with
  | some authzs =>
    match authzs.find? (isAuthorized net_contains · client_addr tls) with
    | some authz => .ok (ServerPermit.new dst server authz)
    | none => .error ⟨server.metadata⟩
  | none => .error ⟨server.metadata⟩

/-- Some TCP authorization of the policy admits the connection. -/
def Admits {M : Type} (server : ServerPolicy Net M) (client_addr : Addr)
    (tls : ConditionalServerTls) : Prop :=
  ∃ authzs, tcpAuthorizations server.protocol = some authzs ∧
    ∃ a ∈ authzs, isAuthorized net_contains a client_addr tls = true

/-- `check_authorized` permits by the authorization that `find?` returns. -/
theorem check_authorized_eq_ok_iff_find {D M : Type} (server : ServerPolicy Net M) (dst : D)
    (ip : Addr) (tls : ConditionalServerTls) (permit : ServerPermit D Net M) :
    checkAuthorized net_contains server dst ip tls = .ok permit ↔
      ∃ authzs, tcpAuthorizations server.protocol = some authzs ∧
        ∃ a, authzs.find? (isAuthorized net_contains · ip tls) = some a ∧
          permit = ServerPermit.new dst server a := by
  unfold checkAuthorized
  cases hp : tcpAuthorizations server.protocol with
  | none => simp
  | some authzs =>
    cases hf : authzs.find? (isAuthorized net_contains · ip tls) with
    | none => simp [hf]
    | some a =>
      simp only [hf, Except.ok.injEq, Option.some.injEq, exists_eq_left']
      exact eq_comm

/-- **The permit.**  A connection is permitted exactly when its server's protocol has TCP
    authorizations and one admits it; the permit names the first that does. -/
theorem check_authorized_eq_ok_iff {D M : Type} (server : ServerPolicy Net M) (dst : D)
    (ip : Addr) (tls : ConditionalServerTls) (permit : ServerPermit D Net M) :
    checkAuthorized net_contains server dst ip tls = .ok permit ↔
      ∃ authzs, tcpAuthorizations server.protocol = some authzs ∧
        ∃ l₁ a l₂, authzs = l₁ ++ a :: l₂ ∧ isAuthorized net_contains a ip tls = true ∧
          (∀ b ∈ l₁, isAuthorized net_contains b ip tls = false) ∧
          permit = ServerPermit.new dst server a := by
  rw [check_authorized_eq_ok_iff_find]
  simp only [List.find?_eq_some_iff_append, Bool.not_eq_eq_eq_not, Bool.not_true]
  constructor
  · rintro ⟨authzs, hp, a, ⟨ha, l₁, l₂, hsplit, hbefore⟩, rfl⟩
    exact ⟨authzs, hp, l₁, a, l₂, hsplit, ha, hbefore, rfl⟩
  · rintro ⟨authzs, hp, l₁, a, l₂, hsplit, ha, hbefore, rfl⟩
    exact ⟨authzs, hp, a, ⟨ha, l₁, l₂, hsplit, hbefore⟩, rfl⟩

/-- A connection is permitted exactly when some TCP authorization admits it. -/
theorem check_authorized_isOk_iff {D M : Type} (server : ServerPolicy Net M) (dst : D)
    (ip : Addr) (tls : ConditionalServerTls) :
    (∃ permit, checkAuthorized net_contains server dst ip tls = .ok permit) ↔
      Admits net_contains server ip tls := by
  simp only [check_authorized_eq_ok_iff_find, Admits]
  constructor
  · rintro ⟨-, authzs, hp, a, hf, -⟩
    have hfa := List.find?_some hf
    exact ⟨authzs, hp, a, List.mem_of_find?_eq_some hf, hfa⟩
  · rintro ⟨authzs, hp, a, ha, hauth⟩
    obtain ⟨b, hb⟩ : ∃ b, authzs.find? (isAuthorized net_contains · ip tls) = some b :=
      Option.isSome_iff_exists.mp (List.find?_isSome.mpr ⟨a, ha, hauth⟩)
    exact ⟨_, authzs, hp, b, hb, rfl⟩

/-- A connection that no authorization admits is denied with the server's label. -/
theorem check_authorized_of_not_admits {D M : Type} (server : ServerPolicy Net M) (dst : D)
    (ip : Addr) (tls : ConditionalServerTls) (h : ¬Admits net_contains server ip tls) :
    checkAuthorized net_contains server dst ip tls = .error ⟨server.metadata⟩ := by
  cases hchk : checkAuthorized net_contains server dst ip tls with
  | error d =>
    -- every denial carries the server's label
    unfold checkAuthorized at hchk
    split at hchk
    · split at hchk
      · cases hchk
      · cases hchk
        rfl
    · cases hchk
      rfl
  | ok permit => exact absurd ((check_authorized_isOk_iff net_contains server dst ip tls).mp ⟨_, hchk⟩) h

end Authorize

end LinkerdProxy.Inbound
