import LinkerdProxy.Outbound.Router

/-!
# Service-profile targets and their distribution

The other source of weighted backends: a service profile's `dst_overrides`.  Its decoder
(`service_profiles::proto::convert_dst_override`) drops the overrides of weight zero and those
whose authority is not a named address, the two checks the client-policy decoder leaves to the
router.  The logical router (`outbound::http::logical::profile`, `Params::from`) splits traffic
over the remaining targets with `Distribution::random_available` and `expect`s it to be valid.

* `convert_dst_override_eq_some` — an override is kept exactly when its weight is positive and its
  authority a named address;
* `mk_profile_distribution_isOk_iff` — with the zero weights gone, the router's `expect` fails
  only when two or more targets' weights sum past `u32::MAX`.
-/

namespace LinkerdProxy.Profiles

open Addr

/-- `destination::WeightedDst`, through what the decoder reads of it. -/
structure WeightedDst where
  authority : String
  weight : Nat
  deriving DecidableEq, Repr

/-- `Target`: a named address and a `u32` weight. -/
structure Target where
  addr : NameAddr
  weight : Nat
  deriving DecidableEq

/-- `convert_dst_override`: no target for a zero weight or an authority that does not parse. -/
def convertDstOverride (orig : WeightedDst) : Option Target :=
  if orig.weight = 0 then none
  else
    match NameAddr.fromStr orig.authority with
    | .ok addr => some ⟨addr, orig.weight⟩
    | .error _ => none

/-- The targets of `convert_profile`: the overrides that convert, in order. -/
def convertTargets (dst_overrides : List WeightedDst) : List Target :=
  dst_overrides.filterMap convertDstOverride

theorem convert_dst_override_eq_some (orig : WeightedDst) (t : Target) :
    convertDstOverride orig = some t ↔
      0 < orig.weight ∧ NameAddr.fromStr orig.authority = .ok t.addr ∧ t.weight = orig.weight := by
  unfold convertDstOverride
  split
  · rename_i hzero
    simp [hzero]
  · rename_i hzero
    cases hparse : NameAddr.fromStr orig.authority with
    | error e => simp
    | ok addr =>
      rcases t with ⟨taddr, tweight⟩
      simp only [Option.some.injEq, Target.mk.injEq, Except.ok.injEq]
      constructor
      · rintro ⟨rfl, rfl⟩
        exact ⟨by omega, rfl, rfl⟩
      · rintro ⟨-, rfl, rfl⟩
        exact ⟨rfl, rfl⟩

/-- Every target the decoder keeps has a positive weight. -/
theorem weight_pos_of_mem_convert_targets {dst_overrides : List WeightedDst} {t : Target}
    (h : t ∈ convertTargets dst_overrides) : 0 < t.weight := by
  obtain ⟨orig, -, horig⟩ := List.mem_filterMap.mp h
  obtain ⟨hpos, -, hweight⟩ := (convert_dst_override_eq_some orig t).mp horig
  omega

theorem sum_pos_of_weight_pos {ts : List Target} (hne : ts ≠ []) (hpos : ∀ t ∈ ts, 0 < t.weight) :
    0 < (ts.map (·.weight)).sum := by
  cases ts with
  | nil => exact absurd rfl hne
  | cons t ts =>
    have := hpos t List.mem_cons_self
    simp only [List.map_cons, List.sum_cons]
    omega

end LinkerdProxy.Profiles

namespace LinkerdProxy.Outbound

open Addr Distribute Profiles

/-- The distribution of the profile router's `Params::from`: without targets, the logical address
    alone; else every target by its weight.  An error is the message of the `expect`. -/
def mkProfileDistribution (addr : NameAddr) (targets : List Target) :
    Except String (Distribution NameAddr) :=
  if targets.isEmpty then .ok (Distribution.first_available [addr])
  else
    match Distribution.random_available (targets.map fun t => (t.addr, t.weight)) with
    | .ok d => .ok d
    | .error _ => .error "distribution must be valid"

/-- **Only an overflow panics the profile router.**  The decoder has dropped the zero weights, so
    the distribution of a profile's targets is built unless there are two or more of them whose
    weights sum past `u32::MAX`. -/
theorem mk_profile_distribution_isOk_iff (addr : NameAddr) (dst_overrides : List WeightedDst) :
    (mkProfileDistribution addr (convertTargets dst_overrides)).isOk = true ↔
      (convertTargets dst_overrides).length < 2 ∨
        ((convertTargets dst_overrides).map (·.weight)).sum ≤ U32_MAX := by
  unfold mkProfileDistribution
  split
  · rename_i hempty
    simp [List.isEmpty_iff.mp hempty]
  · rename_i hempty
    have hpos := sum_pos_of_weight_pos (by simpa using hempty)
      (fun t ht => weight_pos_of_mem_convert_targets ht)
    have hr := random_available_isOk_iff ((convertTargets dst_overrides).map fun t => (t.addr, t.weight))
    simp only [List.length_map, List.map_map] at hr
    have hweights : (Prod.snd ∘ fun t : Target => (t.addr, t.weight)) = (·.weight) := rfl
    rw [hweights] at hr
    -- the zero total is out of reach: only the bound on the sum is left
    have hiff : (convertTargets dst_overrides).length < 2 ∨
        (0 < ((convertTargets dst_overrides).map (·.weight)).sum ∧
          ((convertTargets dst_overrides).map (·.weight)).sum ≤ U32_MAX) ↔
        (convertTargets dst_overrides).length < 2 ∨
          ((convertTargets dst_overrides).map (·.weight)).sum ≤ U32_MAX := by
      constructor
      · rintro (h | ⟨-, h⟩)
        · exact .inl h
        · exact .inr h
      · rintro (h | h)
        · exact .inl h
        · exact .inr ⟨hpos, h⟩
    rw [← hiff, ← hr]
    cases Distribution.random_available ((convertTargets dst_overrides).map
      fun t => (t.addr, t.weight)) <;> rfl

example : mkProfileDistribution ⟨⟨"web.ns.svc.cluster.local", by decide, by decide⟩, 80⟩
    (convertTargets [⟨"a.ns.svc.cluster.local:8080", 2147483648⟩,
      ⟨"b.ns.svc.cluster.local:8080", 2147483648⟩]) = .error "distribution must be valid" := by
  decide

end LinkerdProxy.Outbound
