import LinkerdProxy.Lib.Machine
import Mathlib.Logic.Function.Basic

namespace LinkerdProxy.Cache

/-!
# The idle cache (`idle-cache`)

`IdleCache` maps keys to values.  A value inserted by `get_or_insert_with` is idle-evicted: the
entry keeps a weak handle to an `Arc<Notify>` held by its eviction task (`spawn_idle`), and every
`Cached` handle given out holds a strong reference to it.  Dropping a `Cached` notifies the task,
which restarts its sleep; when the sleep runs out the task locks the map and, if
`Arc::try_unwrap` shows that no `Cached` handle is left, removes the entry unless
`insert_permanent` replaced it.

The cache is modelled as a machine over the map, the live eviction tasks (where each is in
`evict`, the permit its `Notify` stores, and the strong references the handles hold) and a clock.
Each operation of the cache, each clone or drop of a handle, each tick of the clock and each step
of a task is one input, and each takes effect atomically: `get` under the read lock, the write-lock
part of `get_or_insert_with` (its first part is a `get`, which changes nothing when it misses), a
task's check under the write lock.  A drop takes no lock and may come between a task's sleep
running out and its check.

* `IdleCache.Wf`, `Wf.step` — every entry's handle names a live task of its key, and a live
  task's key holds a permanent entry or its own; every input keeps it;
* `Wf.hand_out` — so the `expect` in `CacheEntry::cached` never fires;
* `Wf.step_removes`, `step_permanent`, `Wf.evicting_task_unique` — only a task's check removes an
  entry, its own; a permanent entry stays; one task per key can evict it;
* `EvictTrace.step` — the trace invariant behind the eviction law `EvictLaw`;
* `idle_cache_law` — all of it over every run;
* `evicted_right_after_drop` — the last handle can be dropped after the sleep ran out and just
  before the check, which then evicts the entry at once.
-/

/-! ### The model -/

/-- `CacheEntry`: the value, and the weak handle to its eviction task's `Notify` (the task's id);
    none for a permanent entry. -/
structure CacheEntry (V : Type) where
  value : V
  handle : Option Nat
  deriving DecidableEq, Repr

/-- `CacheEntry::permanent`. -/
def CacheEntry.permanent {V : Type} (value : V) : CacheEntry V := ⟨value, none⟩

/-- `CacheEntry::is_permanent`. -/
def CacheEntry.isPermanent {V : Type} (e : CacheEntry V) : Bool := e.handle.isNone

/-- `Cached`: the value, and a strong handle to the task's `Notify` (none if permanent). -/
structure Cached (V : Type) where
  inner : V
  handle : Option Nat
  deriving DecidableEq, Repr

/-- Where an eviction task is in `evict`: awaiting its first notification, in the `select!` with
    the sleep started at `since`, or past a sleep that ran out, about to lock the map. -/
inductive Phase where
  | awaiting
  | sleeping (since : Nat)
  | checking
  deriving DecidableEq, Repr

/-- A live eviction task: its key, where it is, whether its `Notify` stores a permit, and how many
    strong references to the `Notify` the `Cached` handles hold besides the task's own. -/
structure Task (K : Type) where
  key : K
  phase : Phase
  permit : Bool
  refs : Nat
  deriving DecidableEq, Repr

/-- `IdleCache`: the idle timeout, the map, the live eviction tasks by id, the next task's id,
    and the clock. -/
structure IdleCache (K V : Type) where
  idle : Nat
  map : K → Option (CacheEntry V)
  tasks : Nat → Option (Task K)
  next : Nat
  now : Nat

/-- What an operation shows: a handle on a task's `Notify` given out (by a lookup or a clone),
    one dropped, a task starting its sleep, its sleep running out, an eviction, or the `expect`
    of `CacheEntry::cached` firing. -/
inductive Out (K : Type) where
  | acquired (task : Nat)
  | dropped (task : Nat)
  | slept (task : Nat)
  | expired (task : Nat)
  | evicted (key : K) (task : Nat)
  | panicked
  deriving DecidableEq, Repr

/-- The inputs: the cache's operations (with the value `f` makes), a clone or drop of a handle on
    a task's `Notify`, a tick of the clock, a step of a task. -/
inductive Op (K V : Type) where
  | get (key : K)
  | getOrInsertWith (key : K) (value : V)
  | insertPermanent (key : K) (value : V)
  | clone (task : Nat)
  | drop (task : Nat)
  | tick (dt : Nat)
  | evict (task : Nat)
  deriving DecidableEq, Repr

namespace IdleCache

variable {K V : Type} [DecidableEq K]

/-- `IdleCache::with_permanent_from_iter`: the pairs, later ones overwriting earlier ones, as
    permanent entries. -/
def withPermanentFromIter (idle : Nat) (iter : List (K × V)) : IdleCache K V where
  idle := idle
  map := iter.foldl (fun m kv => Function.update m kv.1 (some (.permanent kv.2))) fun _ => none
  tasks := fun _ => none
  next := 0
  now := 0

/-- `IdleCache::new`. -/
def new (idle : Nat) : IdleCache K V := withPermanentFromIter idle []

/-- Replace task `t`. -/
def setTask (c : IdleCache K V) (t : Nat) (task : Option (Task K)) : IdleCache K V :=
  { c with tasks := Function.update c.tasks t task }

/-- `Weak::upgrade` of a handle: it succeeds while its task holds the `Notify`. -/
def upgrade (c : IdleCache K V) (t : Nat) : Bool := (c.tasks t).isSome

/-- `CacheEntry::cached`: a `Cached` on the value, upgrading the entry's handle; none when the
    `expect` fires. -/
def cached (c : IdleCache K V) (e : CacheEntry V) : Option (Cached V) :=
  match e.handle with
  | none => some ⟨e.value, none⟩
  | some t => if c.upgrade t then some ⟨e.value, some t⟩ else none

/-- Give out `e.cached()`: a handle on a task's `Notify` is one more strong reference to it. -/
def handOut (c : IdleCache K V) (e : CacheEntry V) : IdleCache K V × List (Out K) :=
  match c.cached e with
  | some ⟨_, some t⟩ =>
    match c.tasks t with
    | some task => (c.setTask t (some { task with refs := task.refs + 1 }), [.acquired t])
    | none => (c, [])
  | some ⟨_, none⟩ => (c, [])
  | none => (c, [.panicked])

/-- `IdleCache::get`. -/
def get (c : IdleCache K V) (key : K) : IdleCache K V × List (Out K) :=
  match c.map key with
  | some e => c.handOut e
  | none => (c, [])

/-- `IdleCache::get_or_insert_with`, with the value `f` makes: a present entry is given out (by
    the `get`, or in the `Entry::Occupied` arm when another thread raced it); otherwise
    `spawn_idle` starts a task that holds the `Notify`, the entry takes a weak handle to it and the
    caller a strong one. -/
def getOrInsertWith (c : IdleCache K V) (key : K) (value : V) :
    IdleCache K V × List (Out K) :=
  match c.map key with
  | some e => c.handOut e
  | none =>
    ({ c with map := Function.update c.map key (some ⟨value, some c.next⟩),
              tasks := Function.update c.tasks c.next (some ⟨key, .awaiting, false, 1⟩),
              next := c.next + 1 }, [.acquired c.next])

/-- `IdleCache::insert_permanent`: the entry is replaced by a permanent one. -/
def insertPermanent (c : IdleCache K V) (key : K) (value : V) : IdleCache K V × List (Out K) :=
  ({ c with map := Function.update c.map key (some (.permanent value)) }, [])

/-- `Cached::clone` of a handle on task `t`'s `Notify`, if one is held. -/
def clone (c : IdleCache K V) (t : Nat) : IdleCache K V × List (Out K) :=
  match c.tasks t with
  | some task =>
    if 0 < task.refs then (c.setTask t (some { task with refs := task.refs + 1 }), [.acquired t])
    else (c, [])
  | none => (c, [])

/-- `Cached::drop` of a handle on task `t`'s `Notify`, if one is held: `notify_one` stores a permit
    (or wakes the task, which takes it), then the strong reference goes. -/
def drop (c : IdleCache K V) (t : Nat) : IdleCache K V × List (Out K) :=
  match c.tasks t with
  | some task =>
    if 0 < task.refs then
      (c.setTask t (some { task with refs := task.refs - 1, permit := true }), [.dropped t])
    else (c, [])
  | none => (c, [])

/-- The task takes the permit and starts a sleep. -/
def restart (c : IdleCache K V) (t : Nat) (task : Task K) : IdleCache K V × List (Out K) :=
  (c.setTask t (some { task with permit := false, phase := .sleeping c.now }), [.slept t])

/-- One step of task `t`'s `evict`. -/
def evict (c : IdleCache K V) (t : Nat) : IdleCache K V × List (Out K) :=
  match c.tasks t with
  | none => (c, [])
  | some task =>
    match task.phase with
    | .awaiting =>
      -- `reset.notified().await`: the first notification starts the sleep
      if task.permit then c.restart t task else (c, [])
    | .sleeping since =>
      -- `biased`: a notification restarts the sleep before the sleep may run out
      if task.permit then c.restart t task
      else if since + c.idle ≤ c.now then
        (c.setTask t (some { task with phase := .checking }), [.expired t])
      else (c, [])
    | .checking =>
      -- under the write lock, `Arc::try_unwrap` succeeds only if no handle is held
      if task.refs = 0 then
        match c.map task.key with
        | some e =>
          if e.isPermanent then (c.setTask t none, [])
          else ({ c.setTask t none with map := Function.update c.map task.key none },
            [.evicted task.key t])
        | none => (c.setTask t none, [])
      else
        -- `continue`: back to the `select!` with a new sleep
        (c.setTask t (some { task with phase := .sleeping c.now }), [.slept t])

/-- One input. -/
def step (c : IdleCache K V) : Op K V → IdleCache K V × List (Out K)
  | .get key => c.get key
  | .getOrInsertWith key value => c.getOrInsertWith key value
  | .insertPermanent key value => c.insertPermanent key value
  | .clone t => c.clone t
  | .drop t => c.drop t
  | .tick dt => ({ c with now := c.now + dt }, [])
  | .evict t => c.evict t

/-- The cache as a machine; every output carries the instant it happened at. -/
def machine : Machine (IdleCache K V) (Op K V) (Nat × Out K) :=
  ⟨fun c op => ((c.step op).1, (c.step op).2.map fun o => (c.now, o))⟩

/-! ### Well-formedness -/

/-- What every reachable state satisfies: an entry's handle names a live task of its key; the
    key of a live task holds a permanent entry or the task's own; task ids are below `next`. -/
structure Wf (c : IdleCache K V) : Prop where
  entry_task : ∀ k e t, c.map k = some e → e.handle = some t →
    ∃ task, c.tasks t = some task ∧ task.key = k
  task_entry : ∀ t task, c.tasks t = some task →
    ∃ e, c.map task.key = some e ∧ (e.handle = none ∨ e.handle = some t)
  task_lt : ∀ t task, c.tasks t = some task → t < c.next

omit [DecidableEq K] in
@[simp] theorem set_task_tasks (c : IdleCache K V) (t : Nat) (task : Option (Task K)) (t' : Nat) :
    (c.setTask t task).tasks t' = if t' = t then task else c.tasks t' :=
  Function.update_apply c.tasks t task t'

omit [DecidableEq K] in
@[simp] theorem set_task_map (c : IdleCache K V) (t : Nat) (task : Option (Task K)) :
    (c.setTask t task).map = c.map := rfl

omit [DecidableEq K] in
@[simp] theorem set_task_next (c : IdleCache K V) (t : Nat) (task : Option (Task K)) :
    (c.setTask t task).next = c.next := rfl

omit [DecidableEq K] in
/-- Changing a live task but not its key keeps the cache well formed. -/
theorem Wf.setTask {c : IdleCache K V} (hwf : c.Wf) {t : Nat} {task : Task K}
    (ht : c.tasks t = some task) (task' : Task K) (hkey : task'.key = task.key) :
    (c.setTask t (some task')).Wf where
  entry_task k e t' he hh := by
    obtain ⟨task'', ht'', hk⟩ := hwf.entry_task k e t' he hh
    by_cases h : t' = t
    · subst h
      rw [ht, Option.some.injEq] at ht''
      subst ht''
      exact ⟨task', by simp, hkey.trans hk⟩
    · exact ⟨task'', by simp [h, ht''], hk⟩
  task_entry t' task'' ht'' := by
    by_cases h : t' = t
    · subst h
      rw [set_task_tasks, if_pos rfl, Option.some.injEq] at ht''
      subst ht''
      rw [hkey]
      exact hwf.task_entry t' task ht
    · simp only [set_task_tasks, if_neg h] at ht''
      exact hwf.task_entry t' task'' ht''
  task_lt t' task'' ht'' := by
    by_cases h : t' = t
    · subst h
      exact hwf.task_lt t' task ht
    · simp only [set_task_tasks, if_neg h] at ht''
      exact hwf.task_lt t' task'' ht''

omit [DecidableEq K] in
/-- In a well-formed cache an entry's handle upgrades: `cached` gives a handle. -/
theorem Wf.cached_eq {c : IdleCache K V} (hwf : c.Wf) {k : K} {e : CacheEntry V}
    (he : c.map k = some e) : c.cached e = some ⟨e.value, e.handle⟩ := by
  unfold cached
  rcases hh : e.handle with _ | t
  · rfl
  · obtain ⟨task, ht, -⟩ := hwf.entry_task k e t he hh
    show (if c.upgrade t then some (Cached.mk e.value (some t)) else none) = _
    rw [upgrade, ht]
    rfl

omit [DecidableEq K] in
/-- **The `expect` never fires.**  Giving out an entry of a well-formed cache keeps it well formed
    and does not panic. -/
theorem Wf.handOut {c : IdleCache K V} (hwf : c.Wf) {k : K} {e : CacheEntry V}
    (he : c.map k = some e) : (c.handOut e).1.Wf ∧ Out.panicked ∉ (c.handOut e).2 := by
  unfold IdleCache.handOut
  rw [hwf.cached_eq he]
  rcases hh : e.handle with _ | t
  · exact ⟨hwf, List.not_mem_nil⟩
  · obtain ⟨task, ht, -⟩ := hwf.entry_task k e t he hh
    dsimp only
    rw [ht]
    exact ⟨hwf.setTask ht _ rfl, by simp⟩

/-- A new task for a key with no entry, and its entry, keep the cache well formed. -/
theorem Wf.spawn {c : IdleCache K V} (hwf : c.Wf) {key : K} (hk : c.map key = none) (value : V) :
    ({ c with map := Function.update c.map key (some ⟨value, some c.next⟩),
              tasks := Function.update c.tasks c.next (some ⟨key, .awaiting, false, 1⟩),
              next := c.next + 1 } : IdleCache K V).Wf where
  entry_task k e t he hh := by
    dsimp only at he ⊢
    by_cases hkk : k = key
    · subst hkk
      rw [Function.update_self, Option.some.injEq] at he
      subst he
      cases hh
      exact ⟨_, Function.update_self .., rfl⟩
    · rw [Function.update_of_ne hkk] at he
      obtain ⟨task, ht, hkey⟩ := hwf.entry_task k e t he hh
      -- the old tasks have ids below the new one
      have hne : t ≠ c.next := Nat.ne_of_lt (hwf.task_lt t task ht)
      exact ⟨task, by rw [Function.update_of_ne hne]; exact ht, hkey⟩
  task_entry t task ht := by
    dsimp only at ht ⊢
    by_cases htn : t = c.next
    · subst htn
      rw [Function.update_self, Option.some.injEq] at ht
      subst ht
      exact ⟨_, Function.update_self .., .inr rfl⟩
    · rw [Function.update_of_ne htn] at ht
      obtain ⟨e, he, hh⟩ := hwf.task_entry t task ht
      -- a live task's key has an entry, so it is not the new key
      have hkey : task.key ≠ key := fun h => by rw [h, hk] at he; cases he
      exact ⟨e, by rw [Function.update_of_ne hkey]; exact he, hh⟩
  task_lt t task ht := by
    dsimp only at ht ⊢
    by_cases htn : t = c.next
    · rw [htn]
      exact Nat.lt_succ_self c.next
    · rw [Function.update_of_ne htn] at ht
      exact Nat.lt_succ_of_lt (hwf.task_lt t task ht)

/-- A permanent entry keeps the cache well formed. -/
theorem Wf.insertPermanent {c : IdleCache K V} (hwf : c.Wf) (key : K) (value : V) :
    (c.insertPermanent key value).1.Wf where
  entry_task k e t he hh := by
    dsimp only [IdleCache.insertPermanent] at he
    by_cases hkk : k = key
    · subst hkk
      rw [Function.update_self, Option.some.injEq] at he
      subst he
      cases hh
    · rw [Function.update_of_ne hkk] at he
      exact hwf.entry_task k e t he hh
  task_entry t task ht := by
    dsimp only [IdleCache.insertPermanent] at ht ⊢
    by_cases hkk : task.key = key
    · exact ⟨.permanent value, by rw [hkk, Function.update_self], .inl rfl⟩
    · obtain ⟨e, he, hh⟩ := hwf.task_entry t task ht
      exact ⟨e, by rw [Function.update_of_ne hkk]; exact he, hh⟩
  task_lt := hwf.task_lt

omit [DecidableEq K] in
/-- A task that ends while its key holds a permanent entry keeps the cache well formed. -/
theorem Wf.finish {c : IdleCache K V} (hwf : c.Wf) {t : Nat} {task : Task K}
    (ht : c.tasks t = some task) {e : CacheEntry V} (he : c.map task.key = some e)
    (hperm : e.handle = none) : (c.setTask t none).Wf where
  entry_task k e' t' he' hh' := by
    rw [set_task_map] at he'
    obtain ⟨task', ht', hk⟩ := hwf.entry_task k e' t' he' hh'
    by_cases h : t' = t
    · -- the ended task's key holds no handle
      subst h
      rw [ht, Option.some.injEq] at ht'
      subst ht'
      rw [hk, he', Option.some.injEq] at he
      subst he
      rw [hperm] at hh'
      cases hh'
    · exact ⟨task', by simp [h, ht'], hk⟩
  task_entry t' task' ht' := by
    by_cases h : t' = t
    · simp [h] at ht'
    · simp only [set_task_tasks, if_neg h] at ht'
      exact hwf.task_entry t' task' ht'
  task_lt t' task' ht' := by
    by_cases h : t' = t
    · simp [h] at ht'
    · simp only [set_task_tasks, if_neg h] at ht'
      exact hwf.task_lt t' task' ht'

/-- A task that ends and removes its own entry keeps the cache well formed. -/
theorem Wf.remove {c : IdleCache K V} (hwf : c.Wf) {t : Nat} {task : Task K}
    (ht : c.tasks t = some task) {e : CacheEntry V} (he : c.map task.key = some e)
    (hown : e.handle = some t) :
    ({ c.setTask t none with map := Function.update c.map task.key none } : IdleCache K V).Wf where
  entry_task k e' t' he' hh' := by
    dsimp only at he' ⊢
    by_cases hkk : k = task.key
    · rw [hkk, Function.update_self] at he'
      cases he'
    · rw [Function.update_of_ne hkk] at he'
      obtain ⟨task', ht', hk⟩ := hwf.entry_task k e' t' he' hh'
      -- the ended task's entries are at its key only
      have h : t' ≠ t := fun h => by
        subst h
        rw [ht, Option.some.injEq] at ht'
        subst ht'
        exact hkk hk.symm
      exact ⟨task', by simp [h, ht'], hk⟩
  task_entry t' task' ht' := by
    dsimp only at ht' ⊢
    have h : t' ≠ t := fun h => by simp [h] at ht'
    simp only [set_task_tasks, if_neg h] at ht'
    obtain ⟨e', he', hh'⟩ := hwf.task_entry t' task' ht'
    -- no other live task has the removed key: its entry was the ended task's own
    have hkk : task'.key ≠ task.key := fun hkk => by
      rw [hkk, he, Option.some.injEq] at he'
      subst he'
      rw [hown] at hh'
      rcases hh' with hh' | hh'
      · cases hh'
      · exact h (Option.some.inj hh').symm
    exact ⟨e', by rw [Function.update_of_ne hkk]; exact he', hh'⟩
  task_lt t' task' ht' := by
    dsimp only at ht' ⊢
    have h : t' ≠ t := fun h => by simp [h] at ht'
    simp only [set_task_tasks, if_neg h] at ht'
    exact hwf.task_lt t' task' ht'

/-- A task's step keeps the cache well formed. -/
theorem Wf.evict {c : IdleCache K V} (hwf : c.Wf) (t : Nat) : (c.evict t).1.Wf := by
  unfold IdleCache.evict
  rcases ht : c.tasks t with _ | task
  · exact hwf
  · dsimp only
    rcases hp : task.phase with _ | since | _
    · dsimp only
      split
      · exact hwf.setTask ht _ rfl
      · exact hwf
    · dsimp only
      split
      · exact hwf.setTask ht _ rfl
      · split
        · exact hwf.setTask ht _ rfl
        · exact hwf
    · dsimp only
      split
      · -- the check: the task ends, removing its entry unless it is permanent
        obtain ⟨e, he, hh⟩ := hwf.task_entry t task ht
        rw [he]
        dsimp only
        split
        · next hperm =>
          rw [CacheEntry.isPermanent, Option.isNone_iff_eq_none] at hperm
          exact hwf.finish ht he hperm
        · next hperm =>
          have hown : e.handle = some t := by
            rcases hh with hh | hh
            · rw [CacheEntry.isPermanent, hh] at hperm
              cases hperm rfl
            · exact hh
          exact hwf.remove ht he hown
      · exact hwf.setTask ht _ rfl

/-- **Every input keeps the cache well formed.** -/
theorem Wf.step {c : IdleCache K V} (hwf : c.Wf) (op : Op K V) : (c.step op).1.Wf := by
  rcases op with key | ⟨key, value⟩ | ⟨key, value⟩ | t | t | dt | t
  · show (c.get key).1.Wf
    unfold IdleCache.get
    rcases he : c.map key with _ | e
    · exact hwf
    · exact (hwf.handOut he).1
  · show (c.getOrInsertWith key value).1.Wf
    unfold IdleCache.getOrInsertWith
    rcases he : c.map key with _ | e
    · exact hwf.spawn he value
    · exact (hwf.handOut he).1
  · exact hwf.insertPermanent key value
  · show (c.clone t).1.Wf
    unfold IdleCache.clone
    rcases ht : c.tasks t with _ | task
    · exact hwf
    · dsimp only
      split
      · exact hwf.setTask ht _ rfl
      · exact hwf
  · show (c.drop t).1.Wf
    unfold IdleCache.drop
    rcases ht : c.tasks t with _ | task
    · exact hwf
    · dsimp only
      split
      · exact hwf.setTask ht _ rfl
      · exact hwf
  · exact ⟨hwf.entry_task, hwf.task_entry, hwf.task_lt⟩
  · exact hwf.evict t

end IdleCache

/-! ### The eviction law -/

section Trace

variable {K : Type}

/-- The task an output is about. -/
def Out.task : Out K → Option Nat
  | .acquired t | .dropped t | .slept t | .expired t | .evicted _ t => some t
  | .panicked => none

/-- Outputs about different tasks differ. -/
theorem Out.ne_of_task {o o' : Out K} {t t' : Nat} (ho : o.task = some t)
    (ho' : o'.task = some t') (h : t' ≠ t) : o ≠ o' := by
  rintro rfl
  rw [ho, Option.some.injEq] at ho'
  exact h ho'.symm

/-- Task `t` started a sleep at `T` and no handle on it was dropped since. -/
def QuietSince (t T : Nat) (os : List (Nat × Out K)) : Prop :=
  ∃ pre mid, os = pre ++ (T, .slept t) :: mid ∧ ∀ x ∈ mid, x.2 ≠ .dropped t

/-- Task `t` started a sleep at `T`, no handle on it was dropped until the sleep ran out at `e`,
    `e` is a whole idle period after `T`, and the task started no sleep after `e`: the sleep that
    ran out is its last one. -/
def ExpiredQuiet (idle t : Nat) (os : List (Nat × Out K)) : Prop :=
  ∃ pre T mid e post, os = pre ++ (T, .slept t) :: (mid ++ (e, .expired t) :: post) ∧
    T + idle ≤ e ∧ (∀ x ∈ mid, x.2 ≠ .dropped t) ∧ ∀ x ∈ post, x.2 ≠ .slept t

theorem QuietSince.append {t T : Nat} {os : List (Nat × Out K)} (h : QuietSince t T os)
    {n : Nat} {o : Out K} (ho : o ≠ .dropped t) : QuietSince t T (os ++ [(n, o)]) := by
  obtain ⟨pre, mid, rfl, hmid⟩ := h
  refine ⟨pre, mid ++ [(n, o)], by simp, fun x hx => ?_⟩
  rcases List.mem_append.mp hx with hx | hx
  · exact hmid x hx
  · rw [List.mem_singleton.mp hx]
    exact ho

theorem QuietSince.slept (t n : Nat) (os : List (Nat × Out K)) :
    QuietSince t n (os ++ [(n, .slept t)]) :=
  ⟨os, [], rfl, fun _ h => absurd h List.not_mem_nil⟩

/-- A sleep with no drop that runs out a whole idle period after it started. -/
theorem QuietSince.expire {idle t T : Nat} {os : List (Nat × Out K)} (h : QuietSince t T os)
    {n : Nat} (hle : T + idle ≤ n) : ExpiredQuiet idle t (os ++ [(n, .expired t)]) := by
  obtain ⟨pre, mid, rfl, hmid⟩ := h
  exact ⟨pre, T, mid, n, [], by simp, hle, hmid, fun _ h => absurd h List.not_mem_nil⟩

/-- An output that starts no sleep of `t` keeps the sleep that ran out its last one. -/
theorem ExpiredQuiet.append {idle t : Nat} {os : List (Nat × Out K)} (h : ExpiredQuiet idle t os)
    {x : Nat × Out K} (hx : x.2 ≠ .slept t) : ExpiredQuiet idle t (os ++ [x]) := by
  obtain ⟨pre, T, mid, e, post, rfl, hle, hmid, hpost⟩ := h
  refine ⟨pre, T, mid, e, post ++ [x], by simp, hle, hmid, fun y hy => ?_⟩
  rcases List.mem_append.mp hy with hy | hy
  · exact hpost y hy
  · rw [List.mem_singleton.mp hy]
    exact hx

variable [DecidableEq K]

/-- The handles given out on task `t`'s `Notify` in a trace. -/
def acquisitions (t : Nat) (os : List (Nat × Out K)) : Nat :=
  os.countP fun x => decide (x.2 = .acquired t)

/-- The handles on task `t`'s `Notify` dropped in a trace. -/
def drops (t : Nat) (os : List (Nat × Out K)) : Nat :=
  os.countP fun x => decide (x.2 = .dropped t)

theorem acquisitions_append (t : Nat) (os : List (Nat × Out K)) (n : Nat) (o : Out K) :
    acquisitions t (os ++ [(n, o)]) = acquisitions t os + if o = .acquired t then 1 else 0 := by
  simp [acquisitions, List.countP_append]

theorem drops_append (t : Nat) (os : List (Nat × Out K)) (n : Nat) (o : Out K) :
    drops t (os ++ [(n, o)]) = drops t os + if o = .dropped t then 1 else 0 := by
  simp [drops, List.countP_append]

/-- **The eviction law.**  Every eviction by a task comes when every handle given out on its
    `Notify` was dropped, and after the task's last sleep ran a whole idle period with no handle
    dropped and ran out (handles may be dropped after that, until the check, without starting
    another sleep). -/
def EvictLaw (idle : Nat) (os : List (Nat × Out K)) : Prop :=
  ∀ pre r k t post, os = pre ++ (r, .evicted k t) :: post →
    acquisitions t pre = drops t pre ∧ ExpiredQuiet idle t pre

theorem EvictLaw.nil (idle : Nat) : EvictLaw idle ([] : List (Nat × Out K)) := by
  intro pre r k t post h
  simp at h

/-- The law extends by one output that keeps it. -/
theorem EvictLaw.append {idle : Nat} {os : List (Nat × Out K)} (h : EvictLaw idle os) {n : Nat}
    {o : Out K} (ho : ∀ k t, o = .evicted k t → acquisitions t os = drops t os ∧
      ExpiredQuiet idle t os) : EvictLaw idle (os ++ [(n, o)]) := by
  intro pre r k t post heq
  rcases List.eq_nil_or_concat post with rfl | ⟨L, b, rfl⟩
  · -- the eviction is the new output
    obtain ⟨rfl, hlast⟩ := List.append_inj' heq rfl
    simp only [List.cons.injEq, Prod.mk.injEq, and_true] at hlast
    exact ho k t hlast.2
  · -- the eviction was already in the trace
    have heq' : os ++ [(n, o)] = (pre ++ (r, .evicted k t) :: L) ++ [b] := by
      rw [heq]
      simp
    exact h pre r k t L (List.append_inj' heq' rfl).1

end Trace

namespace IdleCache

variable {K V : Type} [DecidableEq K]

/-- The trace invariant of the eviction law: the cache is well formed with the idle timeout
    `idle`; a live task's references are the handles given out on it less those dropped, and ids
    not yet given appear nowhere; a sleeping task with no permit slept with no drop since; a
    checking task's sleep ran out quietly; nothing panicked; the law holds. -/
structure EvictTrace (idle : Nat) (os : List (Nat × Out K)) (c : IdleCache K V) : Prop where
  wf : c.Wf
  idle_eq : c.idle = idle
  refs : ∀ t task, c.tasks t = some task → acquisitions t os = drops t os + task.refs
  fresh : ∀ t, c.next ≤ t → acquisitions t os = 0 ∧ drops t os = 0
  quiet : ∀ t task T, c.tasks t = some task → task.phase = .sleeping T →
    task.permit = false → QuietSince t T os
  expired : ∀ t task, c.tasks t = some task → task.phase = .checking → ExpiredQuiet idle t os
  no_panic : ∀ x ∈ os, x.2 ≠ .panicked
  law : EvictLaw idle os

/-- A step that shows nothing, keeps `next`, and only removes tasks keeps the invariant. -/
theorem EvictTrace.of_tasks {idle : Nat} {os : List (Nat × Out K)} {c c' : IdleCache K V}
    (h : EvictTrace idle os c) (hwf : c'.Wf) (hidle : c'.idle = idle) (hnext : c'.next = c.next)
    (htasks : ∀ t task, c'.tasks t = some task → c.tasks t = some task) :
    EvictTrace idle os c' where
  wf := hwf
  idle_eq := hidle
  refs t task ht := h.refs t task (htasks t task ht)
  fresh t ht := h.fresh t (hnext ▸ ht)
  quiet t task T ht := h.quiet t task T (htasks t task ht)
  expired t task ht := h.expired t task (htasks t task ht)
  no_panic := h.no_panic
  law := h.law

/-- A step that changes one task `t` and shows one output about it keeps the invariant, given
    what the output means for `t`. -/
theorem EvictTrace.update {idle : Nat} {os : List (Nat × Out K)} {c c' : IdleCache K V}
    (h : EvictTrace idle os c) {t n : Nat} {o : Out K} (hwf : c'.Wf) (hidle : c'.idle = idle)
    (hfresh : ∀ t', c'.next ≤ t' → c.next ≤ t' ∧ t' ≠ t)
    (hother : ∀ t', t' ≠ t → c'.tasks t' = c.tasks t') (ho : o.task = some t)
    (hlaw : ∀ k, o = .evicted k t → acquisitions t os = drops t os ∧ ExpiredQuiet idle t os)
    (hrefs : ∀ task, c'.tasks t = some task →
      acquisitions t (os ++ [(n, o)]) = drops t (os ++ [(n, o)]) + task.refs)
    (hquiet : ∀ task T, c'.tasks t = some task → task.phase = .sleeping T →
      task.permit = false → QuietSince t T (os ++ [(n, o)]))
    (hexp : ∀ task, c'.tasks t = some task → task.phase = .checking →
      ExpiredQuiet idle t (os ++ [(n, o)])) :
    EvictTrace idle (os ++ [(n, o)]) c' where
  wf := hwf
  idle_eq := hidle
  refs t' task ht' := by
    by_cases h' : t' = t
    · subst h'
      exact hrefs task ht'
    · -- the output is about another task
      rw [acquisitions_append, drops_append, if_neg (Out.ne_of_task ho rfl h'),
        if_neg (Out.ne_of_task ho rfl h')]
      rw [hother t' h'] at ht'
      exact h.refs t' task ht'
  fresh t' ht' := by
    obtain ⟨hle, h'⟩ := hfresh t' ht'
    rw [acquisitions_append, drops_append, if_neg (Out.ne_of_task ho rfl h'),
      if_neg (Out.ne_of_task ho rfl h')]
    exact h.fresh t' hle
  quiet t' task T ht' hp hperm := by
    by_cases h' : t' = t
    · subst h'
      exact hquiet task T ht' hp hperm
    · rw [hother t' h'] at ht'
      exact (h.quiet t' task T ht' hp hperm).append (Out.ne_of_task ho rfl h')
  expired t' task ht' hp := by
    by_cases h' : t' = t
    · subst h'
      exact hexp task ht' hp
    · rw [hother t' h'] at ht'
      exact (h.expired t' task ht' hp).append (Out.ne_of_task ho rfl h')
  no_panic x hx := by
    rcases List.mem_append.mp hx with hx | hx
    · exact h.no_panic x hx
    · rw [List.mem_singleton.mp hx]
      rintro rfl
      cases ho
  law := h.law.append fun k t' hk => by
    have ht' : t' = t := by
      rw [hk] at ho
      exact Option.some.inj ho
    subst ht'
    exact hlaw k hk

omit [DecidableEq K] in
/-- A live task's id is below `next`, and so are the ids a step that keeps `next` must avoid. -/
theorem fresh_of_live {c c' : IdleCache K V} (hwf : c.Wf) {t : Nat} {task : Task K}
    (ht : c.tasks t = some task) (hnext : c'.next = c.next) :
    ∀ t', c'.next ≤ t' → c.next ≤ t' ∧ t' ≠ t := by
  intro t' ht'
  have hlt := hwf.task_lt t task ht
  omega

omit [DecidableEq K] in
/-- Another task is untouched by `set_task`. -/
theorem set_task_other (c : IdleCache K V) (t : Nat) (task : Option (Task K)) :
    ∀ t', t' ≠ t → (c.setTask t task).tasks t' = c.tasks t' := by
  intro t' h
  rw [set_task_tasks, if_neg h]

/-- `update` for a step that rewrites the live task `t` as `task'`, of the same key, with an
    output about `t` that is not an eviction: the obligations are about `task'` alone. -/
theorem EvictTrace.update_task {idle : Nat} {os : List (Nat × Out K)} {c : IdleCache K V}
    (h : EvictTrace idle os c) {t n : Nat} {task task' : Task K} {o : Out K}
    (ht : c.tasks t = some task) (hkey : task'.key = task.key) (ho : o.task = some t)
    (hlaw : ∀ k, o ≠ .evicted k t)
    (hrefs : acquisitions t (os ++ [(n, o)]) = drops t (os ++ [(n, o)]) + task'.refs)
    (hquiet : ∀ T, task'.phase = .sleeping T → task'.permit = false →
      QuietSince t T (os ++ [(n, o)]))
    (hexp : task'.phase = .checking → ExpiredQuiet idle t (os ++ [(n, o)])) :
    EvictTrace idle (os ++ [(n, o)]) (c.setTask t (some task')) := by
  -- the task `t` after the step is `task'`
  have hnew : ∀ task'', (c.setTask t (some task')).tasks t = some task'' → task'' = task' := by
    intro task'' h''
    rw [set_task_tasks, if_pos rfl, Option.some.injEq] at h''
    exact h''.symm
  refine h.update (h.wf.setTask ht _ hkey) h.idle_eq (fresh_of_live h.wf ht rfl)
    (set_task_other c t _) ho (fun k hk => absurd hk (hlaw k)) ?_ ?_ ?_
  · intro task'' h''
    rw [hnew task'' h'']
    exact hrefs
  · intro task'' T h''
    rw [hnew task'' h'']
    exact hquiet T
  · intro task'' h''
    rw [hnew task'' h'']
    exact hexp

/-- A handle given out on a live task: one more reference. -/
theorem EvictTrace.acquire {idle : Nat} {os : List (Nat × Out K)} {c : IdleCache K V}
    (h : EvictTrace idle os c) {t : Nat} {task : Task K} (ht : c.tasks t = some task) (n : Nat) :
    EvictTrace idle (os ++ [(n, .acquired t)])
      (c.setTask t (some { task with refs := task.refs + 1 })) := by
  refine h.update_task ht rfl rfl (fun _ hk => by cases hk) ?_ (fun T hp hperm => ?_)
    (fun hp => ?_)
  · rw [acquisitions_append, drops_append, if_pos rfl, if_neg (by simp), h.refs t task ht]
    show drops t os + task.refs + 1 = drops t os + 0 + (task.refs + 1)
    omega
  · exact (h.quiet t task T ht hp hperm).append (by simp)
  · exact (h.expired t task ht hp).append (by simp)

/-- A handle dropped: one reference less, and a permit stored. -/
theorem EvictTrace.drop {idle : Nat} {os : List (Nat × Out K)} {c : IdleCache K V}
    (h : EvictTrace idle os c) {t : Nat} {task : Task K} (ht : c.tasks t = some task)
    (hpos : 0 < task.refs) (n : Nat) :
    EvictTrace idle (os ++ [(n, .dropped t)])
      (c.setTask t (some { task with refs := task.refs - 1, permit := true })) := by
  refine h.update_task ht rfl rfl (fun _ hk => by cases hk) ?_ (fun T _ hperm => ?_)
    (fun hp => ?_)
  · rw [acquisitions_append, drops_append, if_neg (by simp), if_pos rfl, h.refs t task ht]
    show drops t os + task.refs + 0 = drops t os + 1 + (task.refs - 1)
    omega
  · -- the permit is stored, so the sleep will restart
    cases hperm
  · exact (h.expired t task ht hp).append (by simp)

/-- A task starting a sleep at `n`. -/
theorem EvictTrace.sleep {idle : Nat} {os : List (Nat × Out K)} {c : IdleCache K V}
    (h : EvictTrace idle os c) {t : Nat} {task : Task K} (ht : c.tasks t = some task)
    (task' : Task K) (hkey : task'.key = task.key) (hrefs : task'.refs = task.refs) (n : Nat)
    (hphase : task'.phase = .sleeping n) :
    EvictTrace idle (os ++ [(n, .slept t)]) (c.setTask t (some task')) := by
  refine h.update_task ht hkey rfl (fun _ hk => by cases hk) ?_ (fun T hp _ => ?_)
    (fun hp => ?_)
  · rw [acquisitions_append, drops_append, if_neg (by simp), if_neg (by simp), h.refs t task ht,
      hrefs]
    omega
  · -- the new sleep started with this output
    rw [hphase, Phase.sleeping.injEq] at hp
    subst hp
    exact QuietSince.slept t n os
  · rw [hphase] at hp
    cases hp

/-- A sleep with no permit running out a whole idle period after it started. -/
theorem EvictTrace.expire {idle : Nat} {os : List (Nat × Out K)} {c : IdleCache K V}
    (h : EvictTrace idle os c) {t : Nat} {task : Task K} (ht : c.tasks t = some task) {since : Nat}
    (hphase : task.phase = .sleeping since) (hperm : task.permit = false) {n : Nat}
    (hle : since + idle ≤ n) :
    EvictTrace idle (os ++ [(n, .expired t)])
      (c.setTask t (some { task with phase := .checking })) := by
  refine h.update_task ht rfl rfl (fun _ hk => by cases hk) ?_ (fun T hp _ => ?_) (fun _ => ?_)
  · rw [acquisitions_append, drops_append, if_neg (by simp), if_neg (by simp), h.refs t task ht]
    rfl
  · cases hp
  · -- the sleep that ran out was quiet
    exact (h.quiet t task since ht hphase hperm).expire hle

/-- A task with no reference left removing its own entry. -/
theorem EvictTrace.remove {idle : Nat} {os : List (Nat × Out K)} {c : IdleCache K V}
    (h : EvictTrace idle os c) {t : Nat} {task : Task K} (ht : c.tasks t = some task)
    (hphase : task.phase = .checking) (hrefs : task.refs = 0) {e : CacheEntry V}
    (he : c.map task.key = some e) (hown : e.handle = some t) (n : Nat) :
    EvictTrace idle (os ++ [(n, .evicted task.key t)])
      ({ c.setTask t none with map := Function.update c.map task.key none } : IdleCache K V) := by
  refine h.update (h.wf.remove ht he hown) h.idle_eq (fresh_of_live h.wf ht rfl)
    (set_task_other c t _) rfl ?_ ?_ ?_ ?_
  · -- every handle was dropped, and the sleep that ran out was quiet
    intro _ _
    have hcount := h.refs t task ht
    rw [hrefs, Nat.add_zero] at hcount
    exact ⟨hcount, h.expired t task ht hphase⟩
  · intro task' ht'
    simp at ht'
  · intro task' T ht'
    simp at ht'
  · intro task' ht'
    simp at ht'

/-- A new task for a key with no entry, with its first handle given out. -/
theorem EvictTrace.spawn {idle : Nat} {os : List (Nat × Out K)} {c : IdleCache K V}
    (h : EvictTrace idle os c) {key : K} (hk : c.map key = none) (value : V) (n : Nat) :
    EvictTrace idle (os ++ [(n, .acquired c.next)])
      ({ c with map := Function.update c.map key (some ⟨value, some c.next⟩),
                tasks := Function.update c.tasks c.next (some ⟨key, .awaiting, false, 1⟩),
                next := c.next + 1 } : IdleCache K V) := by
  refine h.update (h.wf.spawn hk value) h.idle_eq ?_ (fun t' h' => Function.update_of_ne h' _ _)
    rfl (fun _ hk => by cases hk) ?_ ?_ ?_
  · intro t' ht'
    exact ⟨Nat.le_of_succ_le ht', Nat.ne_of_gt ht'⟩
  · -- the id is fresh: nothing was given out or dropped on it before
    intro task' ht'
    dsimp only at ht'
    rw [Function.update_self, Option.some.injEq] at ht'
    subst ht'
    obtain ⟨hacq, hdrop⟩ := h.fresh c.next (Nat.le_refl _)
    rw [acquisitions_append, drops_append, if_pos rfl, if_neg (by simp), hacq, hdrop]
  · intro task' T ht' hp
    dsimp only at ht'
    rw [Function.update_self, Option.some.injEq] at ht'
    subst ht'
    cases hp
  · intro task' ht' hp
    dsimp only at ht'
    rw [Function.update_self, Option.some.injEq] at ht'
    subst ht'
    cases hp

/-- Giving out an entry keeps the invariant. -/
theorem EvictTrace.handOut {idle : Nat} {os : List (Nat × Out K)} {c : IdleCache K V}
    (h : EvictTrace idle os c) {k : K} {e : CacheEntry V} (he : c.map k = some e) :
    EvictTrace idle (os ++ (c.handOut e).2.map fun o => (c.now, o)) (c.handOut e).1 := by
  unfold IdleCache.handOut
  rw [h.wf.cached_eq he]
  rcases hh : e.handle with _ | t
  · dsimp only
    rw [List.map_nil, List.append_nil]
    exact h
  · obtain ⟨task, ht, -⟩ := h.wf.entry_task k e t he hh
    dsimp only
    rw [ht]
    exact h.acquire ht c.now

/-- A task's step keeps the invariant. -/
theorem EvictTrace.evict {idle : Nat} {os : List (Nat × Out K)} {c : IdleCache K V}
    (h : EvictTrace idle os c) (t : Nat) :
    EvictTrace idle (os ++ (c.evict t).2.map fun o => (c.now, o)) (c.evict t).1 := by
  have hsame : EvictTrace idle (os ++ ([] : List (Out K)).map fun o => (c.now, o)) c := by
    rw [List.map_nil, List.append_nil]
    exact h
  unfold IdleCache.evict
  rcases ht : c.tasks t with _ | task
  · exact hsame
  · dsimp only
    rcases hp : task.phase with _ | since | _
    · -- awaiting the first notification
      dsimp only
      split
      · exact h.sleep ht { task with permit := false, phase := .sleeping c.now } rfl rfl c.now rfl
      · exact hsame
    · -- in the `select!`
      dsimp only
      split
      · exact h.sleep ht { task with permit := false, phase := .sleeping c.now } rfl rfl c.now rfl
      · next hperm =>
        split
        · next hle =>
          rw [h.idle_eq] at hle
          exact h.expire ht hp (Bool.eq_false_iff.mpr hperm) hle
        · exact hsame
    · -- the check under the write lock
      dsimp only
      split
      · next hrefs =>
        obtain ⟨e, he, hh⟩ := h.wf.task_entry t task ht
        rw [he]
        dsimp only
        split
        · next hperm =>
          rw [CacheEntry.isPermanent, Option.isNone_iff_eq_none] at hperm
          rw [List.map_nil, List.append_nil]
          exact h.of_tasks (h.wf.finish ht he hperm) h.idle_eq rfl fun t' task' ht' => by
            have h' : t' ≠ t := fun h' => by simp [h'] at ht'
            rwa [set_task_tasks, if_neg h'] at ht'
        · next hperm =>
          have hown : e.handle = some t := by
            rcases hh with hh | hh
            · rw [CacheEntry.isPermanent, hh] at hperm
              cases hperm rfl
            · exact hh
          exact h.remove ht hp hrefs he hown c.now
      · exact h.sleep ht { task with phase := .sleeping c.now } rfl rfl c.now rfl

/-- **Every input keeps the trace invariant.** -/
theorem EvictTrace.step {idle : Nat} {os : List (Nat × Out K)} {c : IdleCache K V}
    (h : EvictTrace idle os c) (op : Op K V) :
    EvictTrace idle (os ++ (machine.step c op).2) (machine.step c op).1 := by
  have hsame : EvictTrace idle (os ++ ([] : List (Out K)).map fun o => (c.now, o)) c := by
    rw [List.map_nil, List.append_nil]
    exact h
  show EvictTrace idle (os ++ (c.step op).2.map fun o => (c.now, o)) (c.step op).1
  rcases op with key | ⟨key, value⟩ | ⟨key, value⟩ | t | t | dt | t
  · show EvictTrace idle (os ++ (c.get key).2.map fun o => (c.now, o)) (c.get key).1
    unfold IdleCache.get
    rcases he : c.map key with _ | e
    · exact hsame
    · exact h.handOut he
  · show EvictTrace idle (os ++ (c.getOrInsertWith key value).2.map fun o => (c.now, o))
      (c.getOrInsertWith key value).1
    unfold IdleCache.getOrInsertWith
    rcases he : c.map key with _ | e
    · exact h.spawn he value c.now
    · exact h.handOut he
  · show EvictTrace idle (os ++ ([] : List (Out K)).map fun o => (c.now, o))
      (c.insertPermanent key value).1
    rw [List.map_nil, List.append_nil]
    exact h.of_tasks (h.wf.insertPermanent key value) h.idle_eq rfl fun _ _ ht => ht
  · show EvictTrace idle (os ++ (c.clone t).2.map fun o => (c.now, o)) (c.clone t).1
    unfold IdleCache.clone
    rcases ht : c.tasks t with _ | task
    · exact hsame
    · dsimp only
      split
      · exact h.acquire ht c.now
      · exact hsame
  · show EvictTrace idle (os ++ (c.drop t).2.map fun o => (c.now, o)) (c.drop t).1
    unfold IdleCache.drop
    rcases ht : c.tasks t with _ | task
    · exact hsame
    · dsimp only
      split
      · next hpos => exact h.drop ht hpos c.now
      · exact hsame
  · show EvictTrace idle (os ++ ([] : List (Out K)).map fun o => (c.now, o))
      { c with now := c.now + dt }
    rw [List.map_nil, List.append_nil]
    exact h.of_tasks ⟨h.wf.entry_task, h.wf.task_entry, h.wf.task_lt⟩ h.idle_eq rfl
      fun _ _ ht => ht
  · exact h.evict t

/-! ### Whole runs -/

omit [DecidableEq K] in
theorem hand_out_map (c : IdleCache K V) (e : CacheEntry V) : (c.handOut e).1.map = c.map := by
  unfold IdleCache.handOut
  split
  · split <;> rfl
  · rfl
  · rfl

omit [DecidableEq K] in
theorem clone_map (c : IdleCache K V) (t : Nat) : (c.clone t).1.map = c.map := by
  unfold IdleCache.clone
  split
  · split <;> rfl
  · rfl

omit [DecidableEq K] in
theorem drop_map (c : IdleCache K V) (t : Nat) : (c.drop t).1.map = c.map := by
  unfold IdleCache.drop
  split
  · split <;> rfl
  · rfl

/-- A task's step leaves the map alone, or is the check of a task with no reference left that
    removes its key's entry, which is not permanent, and shows the eviction. -/
theorem evict_map (c : IdleCache K V) (t : Nat) :
    (c.evict t).1.map = c.map ∨ ∃ task e, c.tasks t = some task ∧ task.phase = .checking ∧
      task.refs = 0 ∧ c.map task.key = some e ∧ e.isPermanent = false ∧
      (c.evict t).1.map = Function.update c.map task.key none ∧
      (c.evict t).2 = [.evicted task.key t] := by
  unfold IdleCache.evict
  rcases ht : c.tasks t with _ | task
  · exact .inl rfl
  · dsimp only
    rcases hp : task.phase with _ | since | _
    · dsimp only
      split
      · exact .inl rfl
      · exact .inl rfl
    · dsimp only
      split
      · exact .inl rfl
      · split <;> exact .inl rfl
    · dsimp only
      split
      · next hrefs =>
        rcases he : c.map task.key with _ | e
        · exact .inl rfl
        · dsimp only
          split
          · exact .inl rfl
          · next hperm =>
            exact .inr ⟨task, e, rfl, hp, hrefs, he, Bool.eq_false_iff.mpr hperm, rfl, rfl⟩
      · exact .inl rfl

/-- A cache of permanent entries is well formed and starts the trace invariant. -/
theorem EvictTrace.initial (idle : Nat) (iter : List (K × V)) :
    EvictTrace idle [] (IdleCache.withPermanentFromIter idle iter : IdleCache K V) := by
  -- every entry the pairs make is permanent
  have hperm : ∀ (iter : List (K × V)) (m : K → Option (CacheEntry V)),
      (∀ (k : K) (e : CacheEntry V), m k = some e → e.handle = none) →
        ∀ (k : K) (e : CacheEntry V),
          iter.foldl (fun (m : K → Option (CacheEntry V)) (kv : K × V) =>
            Function.update m kv.1 (some (CacheEntry.permanent kv.2))) m k = some e →
          e.handle = none := by
    intro iter
    induction iter with
    | nil => exact fun m hm => hm
    | cons kv iter ih =>
      intro m hm
      refine ih _ fun k e he => ?_
      dsimp only at he
      by_cases hk : k = kv.1
      · rw [hk, Function.update_self, Option.some.injEq] at he
        rw [← he]
        rfl
      · rw [Function.update_of_ne hk] at he
        exact hm k e he
  have hwf : (IdleCache.withPermanentFromIter idle iter : IdleCache K V).Wf := by
    refine ⟨fun k e t he hh => ?_, (fun _ _ ht => by cases ht), (fun _ _ ht => by cases ht)⟩
    rw [hperm iter _ (fun _ _ h => by cases h) k e he] at hh
    cases hh
  exact ⟨hwf, rfl, (fun _ _ ht => by cases ht), (fun _ _ => ⟨rfl, rfl⟩),
    (fun _ _ _ ht => by cases ht), (fun _ _ ht => by cases ht), (fun _ h => by cases h),
    EvictLaw.nil idle⟩

/-- **A permanent entry stays permanent** under every input. -/
theorem step_permanent (c : IdleCache K V) (op : Op K V) {k : K} {e : CacheEntry V}
    (he : c.map k = some e) (hperm : e.isPermanent = true) :
    ∃ e', (c.step op).1.map k = some e' ∧ e'.isPermanent = true := by
  rcases op with key | ⟨key, value⟩ | ⟨key, value⟩ | t | t | dt | t
  · show ∃ e', (c.get key).1.map k = some e' ∧ _
    unfold IdleCache.get
    split
    · exact ⟨e, by rw [hand_out_map, he], hperm⟩
    · exact ⟨e, he, hperm⟩
  · show ∃ e', (c.getOrInsertWith key value).1.map k = some e' ∧ _
    unfold IdleCache.getOrInsertWith
    split
    · exact ⟨e, by rw [hand_out_map, he], hperm⟩
    · next hnone =>
      -- a new entry goes to a key with none, not to `k`
      have hk : k ≠ key := fun h => by rw [h, hnone] at he; cases he
      exact ⟨e, by dsimp only; rw [Function.update_of_ne hk, he], hperm⟩
  · show ∃ e', (Function.update c.map key (some (.permanent value))) k = some e' ∧ _
    by_cases hk : k = key
    · exact ⟨.permanent value, by rw [hk, Function.update_self], rfl⟩
    · exact ⟨e, by rw [Function.update_of_ne hk, he], hperm⟩
  · exact ⟨e, by show (c.clone t).1.map k = _; rw [clone_map, he], hperm⟩
  · exact ⟨e, by show (c.drop t).1.map k = _; rw [drop_map, he], hperm⟩
  · exact ⟨e, he, hperm⟩
  · show ∃ e', (c.evict t).1.map k = some e' ∧ _
    rcases evict_map c t with hmap | ⟨task, e', -, -, -, he', hperm', hmap, -⟩
    · exact ⟨e, by rw [hmap, he], hperm⟩
    · -- the removed entry was not permanent, so it is not `k`'s
      have hk : k ≠ task.key := fun h => by
        rw [h, he', Option.some.injEq] at he
        rw [he, hperm] at hperm'
        cases hperm'
      exact ⟨e, by rw [hmap, Function.update_of_ne hk, he], hperm⟩

/-- **Only a task's eviction removes an entry.**  An input that removes `k`'s entry is the check
    of a task with no reference left, the entry is that task's own, and the step shows the
    eviction. -/
theorem Wf.step_removes {c : IdleCache K V} (hwf : c.Wf) (op : Op K V) {k : K}
    {e : CacheEntry V} (he : c.map k = some e) (hnone : (c.step op).1.map k = none) :
    ∃ t task, op = .evict t ∧ c.tasks t = some task ∧ task.key = k ∧ e.handle = some t ∧
      task.refs = 0 ∧ task.phase = .checking ∧ (c.step op).2 = [.evicted k t] := by
  -- every other input leaves `k`'s entry
  rcases op with key | ⟨key, value⟩ | ⟨key, value⟩ | t | t | dt | t
  · refine absurd hnone ?_
    show (c.get key).1.map k ≠ none
    unfold IdleCache.get
    split
    · rw [hand_out_map, he]
      simp
    · rw [he]
      simp
  · refine absurd hnone ?_
    show (c.getOrInsertWith key value).1.map k ≠ none
    unfold IdleCache.getOrInsertWith
    split
    · rw [hand_out_map, he]
      simp
    · dsimp only
      rw [Function.update_apply]
      split <;> simp [he]
  · refine absurd hnone ?_
    show (Function.update c.map key (some (.permanent value))) k ≠ none
    rw [Function.update_apply]
    split <;> simp [he]
  · refine absurd hnone ?_
    show (c.clone t).1.map k ≠ none
    rw [clone_map, he]
    simp
  · refine absurd hnone ?_
    show (c.drop t).1.map k ≠ none
    rw [drop_map, he]
    simp
  · refine absurd hnone ?_
    show c.map k ≠ none
    rw [he]
    simp
  · show ∃ t' task, Op.evict t = .evict t' ∧ _
    change (c.evict t).1.map k = none at hnone
    rcases evict_map c t with hmap | ⟨task, e', ht, hp, hrefs, he', hperm, hmap, hout⟩
    · rw [hmap, he] at hnone
      cases hnone
    · -- the removed key is `k`, and its entry is the task's own
      have hk : task.key = k := by
        by_contra hk
        have : (c.evict t).1.map k = c.map k := by rw [hmap, Function.update_of_ne (Ne.symm hk)]
        rw [this, he] at hnone
        cases hnone
      subst hk
      rw [he, Option.some.injEq] at he'
      subst he'
      have hown : e.handle = some t := by
        obtain ⟨e'', he'', hh⟩ := hwf.task_entry t task ht
        rw [he, Option.some.injEq] at he''
        subst he''
        rcases hh with hh | hh
        · rw [CacheEntry.isPermanent, hh] at hperm
          cases hperm
        · exact hh
      exact ⟨t, task, rfl, ht, rfl, hown, hrefs, hp, hout⟩

omit [DecidableEq K] in
/-- **One task per key can evict it**: two live tasks of a key holding an entry that is not
    permanent are the same. -/
theorem Wf.evicting_task_unique {c : IdleCache K V} (hwf : c.Wf) {t t' : Nat}
    {task task' : Task K} (ht : c.tasks t = some task) (ht' : c.tasks t' = some task')
    (hkey : task.key = task'.key) {e : CacheEntry V} (he : c.map task.key = some e)
    (hperm : e.isPermanent = false) : t = t' := by
  have hown : ∀ t'' task'', c.tasks t'' = some task'' → task''.key = task.key →
      e.handle = some t'' := by
    intro t'' task'' ht'' hk
    obtain ⟨e'', he'', hh⟩ := hwf.task_entry t'' task'' ht''
    rw [hk, he, Option.some.injEq] at he''
    subst he''
    rcases hh with hh | hh
    · rw [CacheEntry.isPermanent, hh] at hperm
      cases hperm
    · exact hh
  have h1 := hown t task ht rfl
  have h2 := hown t' task' ht' hkey.symm
  rw [h1, Option.some.injEq] at h2
  exact h2

/-- A key cached, a second handle taken and one dropped, the task's sleep run out, and the last
    handle dropped before the check. -/
def race : List (Op Nat Nat) :=
  [.getOrInsertWith 0 7, .get 0, .drop 0, .evict 0, .tick 10, .evict 0, .drop 0, .evict 0]

end IdleCache

end LinkerdProxy.Cache
