import LinkerdProxy.Distribute.Service
import Mathlib.Data.List.AList

namespace LinkerdProxy.Distribute

open Machine

/-!
# The backend cache

`NewBackendCache`, the backends a stack shares across the targets it is built for.  Each target
names its backends (`Backends`, a set); its `new_service` drops the cached backends it does not
name, builds one for each named backend the cache lacks (the loop skipped when the counts
already agree), and hands out a snapshot of the cache.  `NewDistribute` builds each
distribution's `Distribute` from such a snapshot, and panics at a key the snapshot lacks: the
distributions must name only configured backends.

The map is Mathlib's `AList` (the `HashMap`, keys without duplicates), and a set of backends a
list without duplicates, iterated in its order.  What the cache is meant to hold is `expected`:
for each key, the backend built when the key last joined the named set, as long as it stays in
it.

* `new_service_lookup` — one update, from any cache: a named key keeps its backend or gets a new
  one, and an unnamed one is dropped, the count shortcut included;
* `backend_cache_refines` — over every sequence of targets, the cache holds exactly the last
  target's backends, each the one `expected` says, so a backend that stays named is never
  rebuilt;
* `new_distribute_cached` — after any sequence of targets, a distribution over the last
  target's backends is built from the snapshot handed out without a panic, each of its backends
  the cached one.
-/

variable {K S ρ : Type} [DecidableEq K]

/-! ### The cache -/

/-- `Backends`: the set of backends a target names, in the order it is iterated. -/
structure Backends (K : Type) where
  keys : List K
  nodup : keys.Nodup

/-- `NewBackendCache`, by the map it shares between the targets it is built for. -/
structure NewBackendCache (K S : Type) where
  backends : AList fun _ : K => S

/-- `BackendCache`: a snapshot of the shared map. -/
structure BackendCache (K S : Type) where
  backends : AList fun _ : K => S

/-- `HashMap::retain`. -/
def retain (p : K → Bool) (m : AList fun _ : K => S) : AList fun _ : K => S :=
  ⟨m.entries.filter fun e => p e.1, List.NodupKeys.sublist List.filter_sublist m.nodupKeys⟩

/-- The loop over the named backends: one the cache lacks gets a backend from `newk`; one it
    holds is retained. -/
def insertMissing (newk : K → S) : List K → (AList fun _ : K => S) → AList fun _ : K => S
  | [], cache => cache
  | backend :: rest, cache =>
    if backend ∈ cache then insertMissing newk rest cache
    else insertMissing newk rest (cache.insert backend (newk backend))

/-- `NewBackendCache::new_service` for a target naming `backends` and building a backend with
    `newk` (`inner.new_service(target)`): the shared map, updated, and the snapshot handed out.
    The loop runs only when the named backends outnumber the cached ones. -/
def NewBackendCache.newService (c : NewBackendCache K S) (backends : Backends K) (newk : K → S) :
    NewBackendCache K S × BackendCache K S :=
  let cache := retain (fun backend => decide (backend ∈ backends.keys)) c.backends
  let cache :=
    if cache.keys.length < backends.keys.length then insertMissing newk backends.keys cache
    else cache
  (⟨cache⟩, ⟨cache⟩)

/-- `BackendCache::new_service`: the cached backend of a key, with its `expect`. -/
def BackendCache.newService (c : BackendCache K S) (target : K) : Except String S :=
  match c.backends.lookup target with
  | some svc => .ok svc
  | none => .error "target must be in cache"

/-- `NewDistribute::new_service`, over the snapshot its inner stack hands out. -/
def NewDistribute.newService (dist : Distribution K) (newk : BackendCache K S) (rng : ρ) :
    Except String (Distribute K S ρ) :=
  Distribute.new dist newk.newService rng

/-- The shared map driven by the targets it is built for, handing out a snapshot for each. -/
def NewBackendCache.machine : Machine (NewBackendCache K S) (Backends K × (K → S))
    (BackendCache K S) where
  step c target := ((c.newService target.1 target.2).1, [(c.newService target.1 target.2).2])

/-! ### What the cache is for -/

/-- One target's effect on what the cache should hold: a named key keeps its backend, or gets
    the one the target builds; an unnamed key holds none. -/
def expectedStep (m : K → Option S) (target : Backends K × (K → S)) : K → Option S :=
  fun k => if k ∈ target.1.keys then (m k).or (some (target.2 k)) else none

/-- What the cache should hold after a sequence of targets. -/
def expected (targets : List (Backends K × (K → S))) : K → Option S :=
  targets.foldl expectedStep fun _ => none

theorem expected_append_singleton (targets : List (Backends K × (K → S)))
    (target : Backends K × (K → S)) :
    expected (targets ++ [target]) = expectedStep (expected targets) target := by
  simp [expected]

theorem expectedStep_isSome (m : K → Option S) (target : Backends K × (K → S)) (k : K) :
    (expectedStep m target k).isSome ↔ k ∈ target.1.keys := by
  by_cases hk : k ∈ target.1.keys <;> simp [expectedStep, hk]

/-! ### One update -/

theorem dlookup_filter (p : K → Bool) (l : List (Sigma fun _ : K => S)) (k : K) :
    (l.filter fun e => p e.1).dlookup k = if p k then l.dlookup k else none := by
  induction l with
  | nil => simp
  | cons e l ih =>
    obtain ⟨a, b⟩ := e
    by_cases hka : k = a
    · subst hka
      by_cases hp : p k <;> simp [hp, ih]
    · have hne : k ≠ (⟨a, b⟩ : Sigma fun _ : K => S).1 := hka
      by_cases hp : p a <;> simp [hp, ih, List.dlookup_cons_ne _ _ hne]

theorem lookup_retain (p : K → Bool) (m : AList fun _ : K => S) (k : K) :
    (retain p m).lookup k = if p k then m.lookup k else none :=
  dlookup_filter p m.entries k

/-- The loop gives a backend to every named key the cache lacked, and leaves the others. -/
theorem lookup_insertMissing (newk : K → S) (bs : List K) (cache : AList fun _ : K => S)
    (k : K) :
    (insertMissing newk bs cache).lookup k =
      (cache.lookup k).or (if k ∈ bs then some (newk k) else none) := by
  induction bs generalizing cache with
  | nil => simp [insertMissing]
  | cons b rest ih =>
    by_cases hb : b ∈ cache
    · -- a cached backend is retained, so a key it does not cover is not `b`
      rw [insertMissing, if_pos hb, ih]
      by_cases hkb : k = b
      · subst hkb
        obtain ⟨svc, hsvc⟩ := Option.isSome_iff_exists.mp (AList.lookup_isSome.mpr hb)
        simp [hsvc]
      · simp [hkb]
    · rw [insertMissing, if_neg hb, ih]
      by_cases hkb : k = b
      · subst hkb
        simp [AList.lookup_insert, AList.lookup_eq_none.mpr hb]
      · simp [AList.lookup_insert_ne hkb, hkb]

omit [DecidableEq K] in
/-- **The count shortcut.**  Once the unnamed backends are dropped, a cache as large as the named
    set holds all of it, so skipping the loop skips no insertion. -/
theorem mem_of_length_le {backends : Backends K} {cache : AList fun _ : K => S}
    (hsub : ∀ k ∈ cache.keys, k ∈ backends.keys)
    (hlen : backends.keys.length ≤ cache.keys.length) {k : K} (hk : k ∈ backends.keys) :
    k ∈ cache := by
  have hperm : cache.keys.Perm backends.keys :=
    (List.Nodup.subperm cache.keys_nodup hsub).perm_of_length_le hlen
  exact AList.mem_keys.mpr (hperm.symm.subset hk)

/-- **One update.**  After a target's `new_service` the map holds a backend for exactly the
    named keys: the one it held before, or the one built for it now. -/
theorem NewBackendCache.new_service_lookup (c : NewBackendCache K S) (backends : Backends K)
    (newk : K → S) (k : K) :
    (c.newService backends newk).1.backends.lookup k =
      if k ∈ backends.keys then (c.backends.lookup k).or (some (newk k)) else none := by
  have hret := lookup_retain (fun backend => decide (backend ∈ backends.keys)) c.backends
  simp only [newService]
  split_ifs with hlt hk hk
  · simp [lookup_insertMissing, hret, hk]
  · simp [lookup_insertMissing, hret, hk]
  · -- the loop was skipped: the retained map already holds every named key
    have hsub : ∀ b ∈ (retain (fun backend => decide (backend ∈ backends.keys)) c.backends).keys,
        b ∈ backends.keys := by
      intro b hb
      have hsome := AList.lookup_isSome.mpr (AList.mem_keys.mpr hb)
      rw [hret] at hsome
      by_contra hnot
      simp [hnot] at hsome
    have hmem := mem_of_length_le hsub (Nat.le_of_not_lt hlt) hk
    obtain ⟨svc, hsvc⟩ := Option.isSome_iff_exists.mp (AList.lookup_isSome.mpr hmem)
    rw [hret] at hsvc ⊢
    simp only [hk, decide_true, if_true] at hsvc ⊢
    simp [hsvc]
  · simp [hret, hk]

/-! ### Runs -/

/-- Every run of updates computes what `expected` says, from whatever the map held. -/
theorem NewBackendCache.run_lookup (targets : List (Backends K × (K → S)))
    (c : NewBackendCache K S) (k : K) :
    ((NewBackendCache.machine).run c targets).1.backends.lookup k =
      targets.foldl expectedStep (fun k => c.backends.lookup k) k := by
  induction targets generalizing c with
  | nil => rfl
  | cons target targets ih =>
    -- one update moves the map as `expectedStep` says, then the rest of the run
    have hstep : (fun k => ((NewBackendCache.machine.step c target).1 : NewBackendCache K S)
        |>.backends.lookup k) = expectedStep (fun k => c.backends.lookup k) target := by
      funext k
      exact new_service_lookup c target.1 target.2 k
    rw [run_cons, ih, List.foldl_cons, hstep]

/-- **The backend cache.**  Over every sequence of targets from the empty map, the map holds a
    backend for exactly the keys the last target names, each the one `expected` says: built
    when its key last joined the named set and kept, never rebuilt, while it stays. -/
theorem backend_cache_refines (targets : List (Backends K × (K → S))) (backends : Backends K)
    (newk : K → S) (k : K) :
    (k ∈ ((NewBackendCache.machine).run ⟨∅⟩ (targets ++ [(backends, newk)])).1.backends ↔
        k ∈ backends.keys) ∧
      ((NewBackendCache.machine).run ⟨∅⟩ (targets ++ [(backends, newk)])).1.backends.lookup k =
        expected (targets ++ [(backends, newk)]) k := by
  have hlookup : ((NewBackendCache.machine).run ⟨∅⟩ (targets ++ [(backends, newk)])).1.backends.lookup
      k = expected (targets ++ [(backends, newk)]) k := by
    have hempty : (fun k => (⟨∅⟩ : NewBackendCache K S).backends.lookup k) = fun _ => none := by
      funext k
      exact AList.lookup_empty k
    rw [NewBackendCache.run_lookup, hempty]
    rfl
  refine ⟨?_, hlookup⟩
  rw [← AList.lookup_isSome, hlookup, expected_append_singleton]
  exact expectedStep_isSome _ _ k

/-! ### Building a distribution from a snapshot -/

/-- The keys a distribution names. -/
def Distribution.keys : Distribution K → List K
  | .empty => []
  | .firstAvailable keys => keys
  | .randomAvailable keys => keys.map Prod.fst

/-- The backends a selection holds. -/
def Selection.backends : Selection K S ρ → List S
  | .empty => []
  | .firstAvailable s => s.backends
  | .randomAvailable s => s.backends

theorem BackendCache.new_service_eq_ok {c : BackendCache K S} {k : K} {svc : S} :
    c.newService k = .ok svc ↔ c.backends.lookup k = some svc := by
  unfold newService
  split <;> simp_all

/-- Looking up keys the snapshot holds, in order, never panics. -/
theorem BackendCache.mapM_new_service {α : Type} (c : BackendCache K S) (g : α → K)
    (l : List α) (h : ∀ a ∈ l, (c.backends.lookup (g a)).isSome) :
    ∃ svcs, l.mapM (fun a => c.newService (g a)) = .ok svcs ∧
      svcs.map some = l.map fun a => c.backends.lookup (g a) := by
  induction l with
  | nil => exact ⟨[], rfl, rfl⟩
  | cons a l ih =>
    obtain ⟨svc, hsvc⟩ := Option.isSome_iff_exists.mp (h a List.mem_cons_self)
    obtain ⟨svcs, hl, hmap⟩ := ih fun b hb => h b (List.mem_cons_of_mem a hb)
    refine ⟨svc :: svcs, ?_, by simp [hsvc, hmap]⟩
    simp [List.mapM_cons, new_service_eq_ok.mpr hsvc, hl]

/-- A distribution whose keys the snapshot holds is built without a panic, over the cached
    backends in key order. -/
theorem NewDistribute.new_service_of_isSome {dist : Distribution K} {c : BackendCache K S}
    (h : ∀ k ∈ dist.keys, (c.backends.lookup k).isSome) (rng : ρ) :
    ∃ d, NewDistribute.newService dist c rng = .ok d ∧
      d.selection.backends.map some = dist.keys.map c.backends.lookup := by
  cases dist with
  | empty => exact ⟨⟨.empty⟩, rfl, rfl⟩
  | firstAvailable keys =>
    obtain ⟨svcs, hsvcs, hmap⟩ := c.mapM_new_service (fun k => k) keys h
    refine ⟨⟨.firstAvailable ⟨svcs, none⟩⟩, ?_, hmap⟩
    simp [newService, Distribute.new, Distribute.makeSelection, FirstAvailableSelection.new,
      ServiceKeys.new, hsvcs]
  | randomAvailable keys =>
    have hkeys : ∀ k ∈ (weightedKeys keys).keys, (c.backends.lookup k.key).isSome := by
      intro k hk
      simp only [weightedKeys, ServiceKeys.new, List.mem_map] at hk
      obtain ⟨p, hp, rfl⟩ := hk
      exact h p.1 (List.mem_map_of_mem hp)
    obtain ⟨svcs, hsvcs, hmap⟩ := c.mapM_new_service WeightedKey.key _ hkeys
    simp only [newService, Distribute.new, Distribute.makeSelection]
    split
    · rename_i backends hbackends
      rw [hsvcs, Except.ok.injEq] at hbackends
      subst hbackends
      refine ⟨_, rfl, ?_⟩
      simpa [Selection.backends, Distribution.keys, weightedKeys, ServiceKeys.new,
        Function.comp_def] using hmap
    · rename_i msg hmsg
      rw [hsvcs] at hmsg
      cases hmsg

/-- **Building from the cache.**  After any sequence of targets, a distribution naming only
    backends of the last target is built from the snapshot handed out for it without a panic,
    each of its backends the cached one for its key, as `expected` says. -/
theorem new_distribute_cached (targets : List (Backends K × (K → S))) (backends : Backends K)
    (newk : K → S) (dist : Distribution K) (hkeys : ∀ k ∈ dist.keys, k ∈ backends.keys)
    (rng : ρ) :
    ∃ snap d,
      ((NewBackendCache.machine).run ⟨∅⟩ (targets ++ [(backends, newk)])).2.getLast? =
          some snap ∧
        NewDistribute.newService dist snap rng = .ok d ∧
        d.selection.backends.map some = dist.keys.map (expected (targets ++ [(backends, newk)])) := by
  -- the snapshot handed out last is the map after the whole run
  set final := ((NewBackendCache.machine).run ⟨∅⟩ (targets ++ [(backends, newk)])).1
  have hsnap : ((NewBackendCache.machine).run ⟨∅⟩ (targets ++ [(backends, newk)])).2.getLast? =
      some ⟨final.backends⟩ := by
    simp [final, run_append, NewBackendCache.machine]
    rfl
  have hlookup : ∀ k, final.backends.lookup k = expected (targets ++ [(backends, newk)]) k := by
    intro k
    have hempty : (fun k => (⟨∅⟩ : NewBackendCache K S).backends.lookup k) = fun _ => none := by
      funext k
      exact AList.lookup_empty k
    rw [NewBackendCache.run_lookup, hempty]
    rfl
  have hsome : ∀ k ∈ dist.keys, (final.backends.lookup k).isSome := by
    intro k hk
    rw [hlookup, expected_append_singleton, expectedStep_isSome]
    exact hkeys k hk
  obtain ⟨d, hd, hmap⟩ :=
    NewDistribute.new_service_of_isSome (c := ⟨final.backends⟩) hsome rng
  refine ⟨⟨final.backends⟩, d, hsnap, hd, ?_⟩
  rw [hmap]
  exact List.map_congr_left fun k _ => hlookup k

/-- One target naming backends `1` and `2`, and a distribution over `2`. -/
theorem new_distribute_cached_one_target :
    (∀ k ∈ (Distribution.first_available [2]).keys,
        k ∈ (⟨[1, 2], by decide⟩ : Backends Nat).keys) ∧
      ∃ snap d,
        ((NewBackendCache.machine).run ⟨∅⟩
            ([] ++ [((⟨[1, 2], by decide⟩ : Backends Nat), fun k => k * 10)])).2.getLast? =
          some snap ∧
        NewDistribute.newService (Distribution.first_available [2]) snap (0 : Nat) = .ok d ∧
        d.selection.backends.map some = (Distribution.first_available [2]).keys.map
          (expected ([] ++ [((⟨[1, 2], by decide⟩ : Backends Nat), fun k => k * 10)])) :=
  ⟨by decide, new_distribute_cached [] _ _ _ (by decide) 0⟩

end LinkerdProxy.Distribute
