import LinkerdProxy.Http.Upgrade

namespace LinkerdProxy.Http

/-!
# Orig-proto: HTTP/1 carried over HTTP/2 between proxies (`linkerd_proxy_http::orig_proto`)

The client proxy's `Upgrade` sends an HTTP/1.0 or HTTP/1.1 request to a peer proxy over HTTP/2,
recording the request's version, and whether its target was in absolute form, in an
`l5d-orig-proto` field.  The peer's `Downgrade` layer reads the field back, restores the version
and the absolute-form mark before its HTTP/1 service sees the request, and records the version of
that service's response the same way, which the `Upgrade` client then decodes.

Only a message's version and fields cross the connection between the two proxies: the request's
extensions (`WasAbsoluteForm`, `Http11Upgrade`, `WasUpgrade`) stay with the proxy that set them,
so the peer starts from none (`Request.on_wire`).  Bodies pass through both layers untouched and
are left out.

* `orig_proto_header_read_back` — the field the two layers add is read back after
  `transfer-encoding` is removed, leaving the map without both names;
* `orig_proto_round_trip` — for every HTTP/1.x request that is not an HTTP/1.1 upgrade, the peer's
  service sees the request's version, fields and absolute-form mark, and for every HTTP/1.x
  response the client sees the response's version and fields, in both directions without
  `l5d-orig-proto` and `transfer-encoding`; the HTTP/2 request never carries
  `transfer-encoding`.
-/

/-- `HeaderMap::insert`: the value replaces every value of the name. -/
def HeaderMap.insert (h : HeaderMap) (k : HeaderName) (v : HeaderValue) : HeaderMap :=
  ⟨insertKey k v h.fields⟩

/-- The bytes of a static ASCII string. -/
def ascii (s : String) : List UInt8 := s.toList.map fun c => c.toNat.toUInt8

def L5D_ORIG_PROTO : HeaderName := ⟨"l5d-orig-proto".toList, by decide⟩
def TRANSFER_ENCODING : HeaderName := ⟨"transfer-encoding".toList, by decide⟩

namespace OrigProto

/-- `http::Version`. -/
inductive Version where
  | HTTP_09 | HTTP_10 | HTTP_11 | HTTP_2 | HTTP_3
  deriving DecidableEq, Repr

/-- The `Debug` text of a version. -/
def Version.debug : Version → String
  | .HTTP_09 => "HTTP/0.9"
  | .HTTP_10 => "HTTP/1.0"
  | .HTTP_11 => "HTTP/1.1"
  | .HTTP_2 => "HTTP/2.0"
  | .HTTP_3 => "HTTP/3.0"

/-- The request extensions the two layers read and write, each as whether it is present. -/
structure Extensions where
  /-- `h1::WasAbsoluteForm` -/
  wasAbsoluteForm : Bool := false
  /-- `linkerd_http_upgrade::upgrade::Http11Upgrade` -/
  http11_upgrade : Bool := false
  /-- `orig_proto::WasUpgrade` -/
  was_upgrade : Bool := false
  deriving DecidableEq, Repr

structure Request where
  version : Version
  headers : HeaderMap
  extensions : Extensions
  deriving DecidableEq

structure Response where
  version : Version
  headers : HeaderMap
  deriving DecidableEq

/-- What reaches the peer proxy of a request: its version and fields. -/
def Request.onWire (req : Request) : Request := ⟨req.version, req.headers, {}⟩

/-! ### The client side: `Upgrade` -/

/-- Where `Upgrade` sends a request: an HTTP/1.1 upgrade to the HTTP/1 client as it is, any other
    request to the HTTP/2 connection, with the version its response is given back. -/
inductive Sent where
  | http1 (req : Request)
  | h2 (req : Request) (orig_version : Version)

/-- The `l5d-orig-proto` value of a request's version and form; other versions are
    `unreachable!`. -/
def origProtoHeader : Version → Bool → Except String HeaderValue
  | .HTTP_11, false => .ok ⟨ascii "HTTP/1.1", by decide⟩
  | .HTTP_11, true => .ok ⟨ascii "HTTP/1.1; absolute-form", by decide⟩
  | .HTTP_10, false => .ok ⟨ascii "HTTP/1.0", by decide⟩
  | .HTTP_10, true => .ok ⟨ascii "HTTP/1.0; absolute-form", by decide⟩
  | v, _ => .error ("internal error: entered unreachable code: bad orig-proto version: " ++ v.debug)

/-- `<Upgrade as Service>::call`, up to the connection the request goes out on. -/
def Upgrade.call (req : Request) : Except String Sent :=
  if req.extensions.http11_upgrade then .ok (.http1 req)
  else
    let orig_version := req.version
    let absolute_form := req.extensions.wasAbsoluteForm
    let extensions := { req.extensions with wasAbsoluteForm := false }
    (origProtoHeader orig_version absolute_form).map fun header =>
      -- transfer-encoding is illegal in HTTP/2
      let headers := ((req.headers.insert L5D_ORIG_PROTO header).remove TRANSFER_ENCODING).2
      .h2 ⟨.HTTP_2, headers, extensions⟩ orig_version

/-- The version `Upgrade` gives the response of an upgraded request. -/
def Upgrade.response (orig_version : Version) (rsp : Response) : Response :=
  let (orig_proto, headers) := rsp.headers.remove L5D_ORIG_PROTO
  let version := (orig_proto.bind fun orig_proto =>
    if orig_proto.bytes = ascii "HTTP/1.1" then some .HTTP_11
    else if orig_proto.bytes = ascii "HTTP/1.0" then some .HTTP_10
    else none).getD orig_version
  ⟨version, headers⟩

/-! ### The server side: `Downgrade` -/

/-- `was_absolute_form`. -/
def wasAbsoluteForm (val : List UInt8) : Bool :=
  (ascii "HTTP/1.1; absolute-form").length ≤ val.length &&
    (val.drop 10).take 13 = ascii "absolute-form"

/-- The version `Downgrade` reads from an `l5d-orig-proto` value; an unknown one keeps the
    request's (the source only warns). -/
def downgradeVersion (val : List UInt8) (version : Version) : Version :=
  if (ascii "HTTP/1.1").isPrefixOf val then .HTTP_11
  else if (ascii "HTTP/1.0").isPrefixOf val then .HTTP_10
  else version

/-- `<Downgrade as Service>::call`, up to its inner service: the request the service gets, and
    whether its response is to be upgraded back. -/
def Downgrade.call (req : Request) : Request × Bool :=
  if req.version = .HTTP_2 then
    match req.headers.remove L5D_ORIG_PROTO with
    | (some orig_proto, headers) =>
      let val := orig_proto.bytes
      ({ version := downgradeVersion val req.version
         headers
         extensions := { req.extensions with
           wasAbsoluteForm := req.extensions.wasAbsoluteForm || wasAbsoluteForm val
           was_upgrade := true } }, true)
    | (none, headers) => ({ req with headers }, false)
  else (req, false)

/-- The `l5d-orig-proto` value `Downgrade` gives a response of a version, if any. -/
def responseOrigProto : Version → Option HeaderValue
  | .HTTP_11 => some ⟨ascii "HTTP/1.1", by decide⟩
  | .HTTP_10 => some ⟨ascii "HTTP/1.0", by decide⟩
  | _ => none

/-- What `Downgrade` does with its service's response. -/
def Downgrade.response (upgrade_response : Bool) (res : Response) : Response :=
  if upgrade_response then
    match responseOrigProto res.version with
    | some orig_proto =>
      ⟨.HTTP_2, ((res.headers.insert L5D_ORIG_PROTO orig_proto).remove TRANSFER_ENCODING).2⟩
    | none => res
  else res

/-! ### Reading the field back -/

/-- A header map without the two fields the layers rewrite. -/
def withoutOrigProto (h : HeaderMap) : HeaderMap :=
  ((h.remove L5D_ORIG_PROTO).2.remove TRANSFER_ENCODING).2

theorem L5D_ORIG_PROTO_ne : L5D_ORIG_PROTO ≠ TRANSFER_ENCODING := by decide

/-- The field the layers set is read back after `transfer-encoding` goes, and what is left is the
    map without both names. -/
theorem orig_proto_header_read_back (h : HeaderMap) (v : HeaderValue) :
    ((h.insert L5D_ORIG_PROTO v).remove TRANSFER_ENCODING).2.remove L5D_ORIG_PROTO =
      (some v, withoutOrigProto h) := by
  let sent := (insertKey L5D_ORIG_PROTO v h.fields).filter fun f => f.1 ≠ TRANSFER_ENCODING
  have hvalue : getAll sent L5D_ORIG_PROTO = [v] := by
    have hkeep : decide (L5D_ORIG_PROTO ≠ TRANSFER_ENCODING) = true :=
      decide_eq_true L5D_ORIG_PROTO_ne
    rw [getAll_filter (p := fun k => decide (k ≠ TRANSFER_ENCODING)) hkeep, getAll_insertKey]
  -- the two filters commute, and the one by `l5d-orig-proto` undoes the insertion
  have hrest : sent.filter (fun f => f.1 ≠ L5D_ORIG_PROTO) =
      (h.fields.filter fun f => f.1 ≠ L5D_ORIG_PROTO).filter fun f => f.1 ≠ TRANSFER_ENCODING := by
    rw [List.filter_comm, filter_ne_insertKey]
  rw [HeaderMap.remove_eq]
  show ((getAll sent L5D_ORIG_PROTO).head?, HeaderMap.mk (sent.filter _)) = _
  rw [hvalue, hrest]
  rfl

/-- Each request value names its version and form. -/
theorem downgrade_orig_proto_header {v : Version} {absolute_form : Bool} {val : HeaderValue}
    (h : origProtoHeader v absolute_form = .ok val) (version : Version) :
    downgradeVersion val.bytes version = v ∧ wasAbsoluteForm val.bytes = absolute_form := by
  cases v <;> cases absolute_form <;> simp only [origProtoHeader, reduceCtorEq,
    Except.ok.injEq] at h <;> subst h <;> exact ⟨rfl, rfl⟩

/-- Each response value names its version. -/
theorem upgrade_response_orig_proto {v : Version} {val : HeaderValue}
    (h : responseOrigProto v = some val) (orig_version : Version) :
    ((if val.bytes = ascii "HTTP/1.1" then some .HTTP_11
      else if val.bytes = ascii "HTTP/1.0" then some .HTTP_10 else none).getD orig_version) = v := by
  cases v <;> simp only [responseOrigProto, reduceCtorEq, Option.some.injEq] at h <;>
    subst h <;> rfl

/-- **The orig-proto round trip.**  A request that is not an HTTP/1.1 upgrade, of version HTTP/1.0
    or HTTP/1.1, goes out as an HTTP/2 request without `transfer-encoding`; from what reaches the
    peer, `Downgrade` gives its service the request's version and fields and its absolute-form
    mark, with `l5d-orig-proto` and `transfer-encoding` removed and the upgrade recorded.  Every
    HTTP/1.x response of that service reaches the client with its version and its fields, the
    same two removed.  A client's own `l5d-orig-proto` field never reaches the peer. -/
theorem orig_proto_round_trip (req : Request)
    (hversion : req.version = .HTTP_10 ∨ req.version = .HTTP_11)
    (hupgrade : req.extensions.http11_upgrade = false) :
    ∃ sent, Upgrade.call req = .ok (.h2 sent req.version) ∧
      sent.version = .HTTP_2 ∧ sent.headers.get_all TRANSFER_ENCODING = [] ∧
      Downgrade.call sent.onWire =
        (⟨req.version, withoutOrigProto req.headers,
          { wasAbsoluteForm := req.extensions.wasAbsoluteForm, was_upgrade := true }⟩, true) ∧
      ∀ rsp : Response, (rsp.version = .HTTP_10 ∨ rsp.version = .HTTP_11) →
        Upgrade.response req.version (Downgrade.response true rsp) =
          ⟨rsp.version, withoutOrigProto rsp.headers⟩ := by
  obtain ⟨val, hval⟩ : ∃ val,
      origProtoHeader req.version req.extensions.wasAbsoluteForm = .ok val := by
    rcases hversion with h | h <;> rw [h] <;> cases req.extensions.wasAbsoluteForm <;>
      exact ⟨_, rfl⟩
  have hdecode := downgrade_orig_proto_header hval .HTTP_2
  refine ⟨⟨.HTTP_2, ((req.headers.insert L5D_ORIG_PROTO val).remove TRANSFER_ENCODING).2,
    { req.extensions with wasAbsoluteForm := false }⟩, ?_, rfl, ?_, ?_, ?_⟩
  · -- the request goes to the HTTP/2 connection
    simp only [Upgrade.call, hupgrade, hval]
    rfl
  · exact getAll_filter_ne _ _
  · -- the peer reads the field back
    simp only [Downgrade.call, Request.onWire]
    rw [orig_proto_header_read_back]
    simp [hdecode]
  · intro rsp hrsp
    obtain ⟨orig_proto, horig⟩ : ∃ v, responseOrigProto rsp.version = some v := by
      rcases hrsp with h | h <;> rw [h] <;> exact ⟨_, rfl⟩
    simp only [Downgrade.response, if_true, horig]
    unfold Upgrade.response
    rw [orig_proto_header_read_back]
    dsimp only
    rw [Option.bind_some, upgrade_response_orig_proto horig]

theorem orig_proto_round_trip_absolute_form :
    ∃ sent, Upgrade.call ⟨.HTTP_11, ⟨[]⟩, { wasAbsoluteForm := true }⟩ =
        .ok (.h2 sent .HTTP_11) ∧
      sent.version = .HTTP_2 ∧ sent.headers.get_all TRANSFER_ENCODING = [] ∧
      Downgrade.call sent.onWire =
        (⟨.HTTP_11, withoutOrigProto ⟨[]⟩, { wasAbsoluteForm := true, was_upgrade := true }⟩,
          true) ∧
      ∀ rsp : Response, (rsp.version = .HTTP_10 ∨ rsp.version = .HTTP_11) →
        Upgrade.response .HTTP_11 (Downgrade.response true rsp) =
          ⟨rsp.version, withoutOrigProto rsp.headers⟩ :=
  orig_proto_round_trip ⟨.HTTP_11, ⟨[]⟩, { wasAbsoluteForm := true }⟩ (.inr rfl) rfl

end OrigProto

end LinkerdProxy.Http
