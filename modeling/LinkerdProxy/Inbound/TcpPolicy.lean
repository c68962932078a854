import LinkerdProxy.Inbound.Authorize
import LinkerdProxy.Lib.Watch
import LinkerdProxy.Lib.Machine

namespace LinkerdProxy.Inbound

/-!
# Enforcing a server policy on a TCP connection (`inbound::policy::tcp`)

`NewTcpPolicy::new_service` checks a new connection against the current server policy and, if an
authorization admits it, hands it to the inner service; the connection task built by
`TcpPolicy::call` then serves it while waiting for policy changes, and re-checks the connection at
each change, closing it with `ServerUnauthorized` when it is no longer admitted.  The policy is a
watch channel: the task is woken by the newest policy it has not yet seen, so policies published
in between are never looked at.

* `TaskInv` — while the task runs, a policy it has seen admits the connection;
* `wake_denies` — no revocation is lost: when the current policy does not admit the connection,
  the task's next wake closes it, whenever the policy was published;
* `revocation_coalesced` — a revoking policy replaced before the task wakes is never enforced.
-/

open LinkerdProxy.Watch (Receiver)

/-- `TcpPolicy`: the service for one connection, authorized with its permit and its policy
    receiver, or denied. -/
inductive TcpPolicy (D Net M : Type) where
  | authorized (permit : ServerPermit D Net M) (policy : Receiver)
  | unauthorized (deny : ServerUnauthorized M)
  deriving DecidableEq, Repr

/-- The connection task of `TcpPolicy::call`: serving, done because the inner service returned,
    or closed because a policy change no longer admits the connection. -/
inductive Task (M : Type) where
  | running (policy : Receiver)
  | served
  | denied (deny : ServerUnauthorized M)
  deriving DecidableEq, Repr

/-- The policy channel and one connection's task. -/
structure System (Net M : Type) where
  policy : Watch (ServerPolicy Net M)
  task : Task M
  deriving DecidableEq, Repr

/-- What happens around the task: the controller publishes a policy or goes away, the task is
    woken and takes the policy branch of its `select!` if it is ready, or the inner service
    returns and the task takes the call branch. -/
inductive Event (Net M : Type) where
  | update (p : ServerPolicy Net M)
  | close
  | wake
  | complete
  deriving DecidableEq, Repr

section TcpPolicy

variable {Addr Net D M : Type} (net_contains : Net → Addr → Bool) (dst : D) (client : Addr)
  (tls : ConditionalServerTls)

/-- `NewTcpPolicy::new_service`: check the connection against the current policy. -/
def newService (policy : Watch (ServerPolicy Net M)) (rx : Receiver) : TcpPolicy D Net M :=
  match checkAuthorized net_contains policy.value dst client tls with
  | .ok permit => .authorized permit rx
  | .error deny => .unauthorized deny

/-- One step of the connection task and its surroundings; a denial is emitted as an output. -/
def System.step (s : System Net M) : Event Net M → System Net M × List (ServerUnauthorized M)
  | .update p => ({ s with policy := s.policy.send p }, [])
  | .close => ({ s with policy := s.policy.close }, [])
  | .complete =>
    match s.task with
    | .running _ => ({ s with task := .served }, [])
    | _ => (s, [])
  | .wake =>
    match s.task with
    | .running rx =>
      match s.policy.changed rx with
      | some (.ok rx') =>
        match checkAuthorized net_contains s.policy.value dst client tls with
        | .ok _ => ({ s with task := .running rx' }, [])
        | .error denied => ({ s with task := .denied denied }, [denied])
      -- `AllowPolicy::changed` waits forever once the sender is gone
      | _ => (s, [])
    | _ => (s, [])

/-- The connection task as a machine. -/
def machine : Machine (System Net M) (Event Net M) (ServerUnauthorized M) :=
  ⟨System.step net_contains dst client tls⟩

/-- The task built by `call` for an authorized connection: it serves with a clone of the policy
    receiver, which has seen what the original had seen. -/
def call (policy : Watch (ServerPolicy Net M)) : TcpPolicy D Net M → Option (System Net M)
  | .authorized _ rx => some ⟨policy, .running rx⟩
  | .unauthorized _ => none

/-- While the task runs, its receiver has not seen past the channel, and a policy it has seen is
    current only if it admits the connection. -/
def TaskInv (s : System Net M) : Prop :=
  match s.task with
  | .running rx => rx.seen ≤ s.policy.version ∧
      (rx.seen = s.policy.version → Admits net_contains s.policy.value client tls)
  | _ => True

/-- **Step lemma.**  Publishing, closing, serving and waking keep the invariant. -/
theorem TaskInv.step {s : System Net M} (hs : TaskInv net_contains client tls s)
    (e : Event Net M) : TaskInv net_contains client tls (s.step net_contains dst client tls e).1 := by
  cases e with
  | update p =>
    -- a new version is unseen
    unfold TaskInv at hs ⊢
    cases ht : s.task with
    | running rx =>
      rw [ht] at hs
      simp only [System.step, ht, Watch.send_version]
      exact ⟨by omega, fun h => absurd h (by omega)⟩
    | served => simp [System.step, ht]
    | denied d => simp [System.step, ht]
  | close =>
    unfold TaskInv at hs ⊢
    cases ht : s.task with
    | running rx =>
      rw [ht] at hs
      simpa [System.step, ht] using hs
    | served => simp [System.step, ht]
    | denied d => simp [System.step, ht]
  | complete =>
    unfold TaskInv
    cases ht : s.task <;> simp [System.step, ht]
  | wake =>
    unfold TaskInv at hs ⊢
    cases ht : s.task with
    | running rx =>
      rw [ht] at hs
      simp only [System.step, ht]
      cases hc : s.policy.changed rx with
      | none => simpa [ht] using hs
      | some r =>
        cases r with
        | error u => simpa [ht] using hs
        | ok rx' =>
          -- the task marks the current version seen and checks the current policy
          obtain ⟨-, rfl⟩ := Watch.changed_eq_ok hc
          cases hchk : checkAuthorized net_contains s.policy.value dst client tls with
          | ok permit =>
            have hadm : Admits net_contains s.policy.value client tls :=
              (check_authorized_isOk_iff net_contains s.policy.value dst client tls).mp ⟨_, hchk⟩
            simp only
            exact ⟨Nat.le_refl _, fun _ => hadm⟩
          | error d => simp
    | served => simp [System.step, ht]
    | denied d => simp [System.step, ht]

/-- The task starts with the invariant: `new_service` checked the policy it read. -/
theorem TaskInv.call {policy : Watch (ServerPolicy Net M)} {rx : Receiver}
    (hrx : rx.seen ≤ policy.version) {s : System Net M}
    (h : call policy (newService net_contains dst client tls policy rx) = some s) :
    TaskInv net_contains client tls s := by
  unfold newService at h
  cases hchk : checkAuthorized net_contains policy.value dst client tls with
  | error d =>
    rw [hchk] at h
    cases h
  | ok permit =>
    rw [hchk] at h
    cases h
    exact ⟨hrx, fun _ =>
      (check_authorized_isOk_iff net_contains policy.value dst client tls).mp ⟨_, hchk⟩⟩

/-- **Run lemma.**  Every run of the task keeps the invariant. -/
theorem TaskInv.run {s : System Net M} (hs : TaskInv net_contains client tls s)
    (es : List (Event Net M)) :
    TaskInv net_contains client tls ((machine net_contains dst client tls).run s es).1 :=
  Machine.run_invariant (machine net_contains dst client tls) (fun _ => True)
    (TaskInv net_contains client tls) (fun _ e _ hs => hs.step net_contains dst client tls e)
    es s (fun _ _ => trivial) hs

/-- **No lost revocation.**  When the current policy does not admit the connection, the running
    task has not seen it, so its next wake re-checks and closes the connection. -/
theorem wake_denies {s : System Net M} (hs : TaskInv net_contains client tls s) {rx : Receiver}
    (hrun : s.task = .running rx) (hno : ¬Admits net_contains s.policy.value client tls) :
    (s.step net_contains dst client tls .wake).1.task = .denied ⟨s.policy.value.metadata⟩ := by
  unfold TaskInv at hs
  rw [hrun] at hs
  have hne : s.policy.version ≠ rx.seen := fun h => hno (hs.2 h.symm)
  simp only [System.step, hrun, Watch.changed_of_ne hne,
    check_authorized_of_not_admits net_contains _ dst client tls hno]

/-- **No spurious denial.**  A wake never closes a connection that the current policy admits. -/
theorem wake_keeps_admitted {s : System Net M} {rx : Receiver} (hrun : s.task = .running rx)
    (hadm : Admits net_contains s.policy.value client tls) :
    ∃ rx', (s.step net_contains dst client tls .wake).1.task = .running rx' := by
  obtain ⟨permit, hchk⟩ := (check_authorized_isOk_iff net_contains _ dst client tls).mpr hadm
  simp only [System.step, hrun]
  cases hc : s.policy.changed rx with
  | none => exact ⟨rx, hrun⟩
  | some r =>
    cases r with
    | error u => exact ⟨rx, hrun⟩
    | ok rx' =>
      simp only [hchk]
      exact ⟨rx', rfl⟩

/-- **Enforcement law.**  `new_service` hands a connection to the inner service exactly when its
    server's protocol has TCP authorizations and one of them admits the connection, with a permit
    naming the first that does; and after every sequence of policy updates, closes, wakes and
    returns, a running task's next wake closes the connection with `ServerUnauthorized` if the
    current policy does not admit it, and keeps it open if it does. -/
theorem tcp_policy_law (policy : Watch (ServerPolicy Net M)) (rx : Receiver)
    (hrx : rx.seen ≤ policy.version) :
    (∀ permit, newService net_contains dst client tls policy rx = .authorized permit rx ↔
      ∃ authzs, tcpAuthorizations policy.value.protocol = some authzs ∧
        ∃ l₁ a l₂, authzs = l₁ ++ a :: l₂ ∧ isAuthorized net_contains a client tls = true ∧
          (∀ b ∈ l₁, isAuthorized net_contains b client tls = false) ∧
          permit = ServerPermit.new dst policy.value a) ∧
    ∀ s, call policy (newService net_contains dst client tls policy rx) = some s →
      ∀ es rx', ((machine net_contains dst client tls).run s es).1.task = .running rx' →
        let s' := ((machine net_contains dst client tls).run s es).1
        (¬Admits net_contains s'.policy.value client tls →
          (s'.step net_contains dst client tls .wake).1.task = .denied ⟨s'.policy.value.metadata⟩) ∧
        (Admits net_contains s'.policy.value client tls →
          ∃ rx'', (s'.step net_contains dst client tls .wake).1.task = .running rx'') := by
  constructor
  · intro permit
    rw [← check_authorized_eq_ok_iff]
    unfold newService
    cases checkAuthorized net_contains policy.value dst client tls <;> simp
  · intro s hs es rx' hrun
    have hinv := (TaskInv.call net_contains dst client tls hrx hs).run net_contains dst client tls es
    exact ⟨wake_denies net_contains dst client tls hinv hrun,
      wake_keeps_admitted net_contains dst client tls hrun⟩

end TcpPolicy

/-- A policy with one authorization admitting every client, and one with none. -/
def admitAll : ServerPolicy Unit Nat := ⟨.opaq [⟨[⟨(), []⟩], .unauthenticated, 1⟩], 0⟩

def admitNone : ServerPolicy Unit Nat := ⟨.opaq [], 0⟩

/-- **Coalesced revocation.**  An authorized connection whose policy is revoked and then
    restored before its task wakes is never closed: the task only sees the newest policy. -/
theorem revocation_coalesced :
    let net_contains : Unit → Unit → Bool := fun _ _ => true
    let policy : Watch (ServerPolicy Unit Nat) := ⟨admitAll, 0, false⟩
    let tls : ConditionalServerTls := .none .disabled
    ¬Admits net_contains admitNone () tls ∧
    call policy (newService net_contains () () tls policy ⟨0⟩) =
      some ⟨policy, .running ⟨0⟩⟩ ∧
    (machine net_contains () () tls).run ⟨policy, .running ⟨0⟩⟩
        [.update admitNone, .update admitAll, .wake] =
      (⟨⟨admitAll, 2, false⟩, .running ⟨2⟩⟩, []) := by
  intro net_contains policy tls
  refine ⟨?_, rfl, rfl⟩
  rintro ⟨authzs, hp, a, ha, -⟩
  cases hp
  cases ha

theorem tcp_policy_law_admit_all :
    (⟨0⟩ : Receiver).seen ≤ (⟨admitAll, 0, false⟩ : Watch (ServerPolicy Unit Nat)).version ∧
    (∀ permit, newService (fun _ _ => true) () () (.none .disabled)
        (⟨admitAll, 0, false⟩ : Watch (ServerPolicy Unit Nat)) ⟨0⟩ = .authorized permit ⟨0⟩ ↔
      ∃ authzs, tcpAuthorizations admitAll.protocol = some authzs ∧
        ∃ l₁ a l₂, authzs = l₁ ++ a :: l₂ ∧
          isAuthorized (fun _ _ => true) a () (.none .disabled) = true ∧
          (∀ b ∈ l₁, isAuthorized (fun _ _ => true) b () (.none .disabled) = false) ∧
          permit = ServerPermit.new () admitAll a) :=
  ⟨Nat.le_refl 0, (tcp_policy_law (fun _ _ => true) () () (.none .disabled)
    ⟨admitAll, 0, false⟩ ⟨0⟩ (Nat.le_refl 0)).1⟩

end LinkerdProxy.Inbound
