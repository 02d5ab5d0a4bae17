import Cppload.ConnectionPoolConservation

/-!
# What a cleanup evicts

Clients are queued in the order of their release, so under a clock that never
goes back the expired entries of a queue are in front.  The loop of `cleanup`
stops at the first young entry and still finds all of them.  Nothing keeps a user
from releasing a client that the pool did not make, which the counter then does
not know of.
-/

namespace Cppload

open Transition

namespace ConnectionPool

variable {pool : ConnectionPool} {clock now : ℤ}

/-- Every queue is ordered by `idle_since`, and nothing was released later than
the latest reading. -/
structure Aged (pool : ConnectionPool) (clock : ℤ) : Prop where
  ordered : ∀ key, (KeyedQueues.queue pool.pools key).Pairwise
    fun earlier later => earlier.idleSince ≤ later.idleSince
  past : ∀ key, ∀ entry ∈ KeyedQueues.queue pool.pools key, entry.idleSince ≤ clock

theorem new_aged (config : PoolConfig) (clock : ℤ) : (new config).Aged clock where
  ordered := fun _ => List.Pairwise.nil
  past := fun _ _ member => by cases member

theorem Aged.later (aged : pool.Aged clock) (later : clock ≤ now) : pool.Aged now :=
  ⟨aged.ordered, fun key entry member => (aged.past key entry member).trans later⟩

/-- Storing an ordered queue of old entries. -/
theorem Aged.setQueue (aged : pool.Aged clock) {host : String} {port : ℕ}
    {entries : List PoolEntry}
    (ordered : entries.Pairwise fun earlier later => earlier.idleSince ≤ later.idleSince)
    (past : ∀ entry ∈ entries, entry.idleSince ≤ clock) :
    (pool.setQueue host port entries).Aged clock := by
  have queueEq (other : String) :
      KeyedQueues.queue (pool.setQueue host port entries).pools other =
        if other = key host port then entries else KeyedQueues.queue pool.pools other := by
    by_cases same : other = key host port
    · rw [if_pos same, same]
      exact KeyedQueues.queue_insert _ _ _
    · rw [if_neg same]
      exact KeyedQueues.queue_insert_of_ne _ same _
  constructor <;> intro other <;> rw [queueEq other] <;> split
  · exact ordered
  · exact aged.ordered other
  · exact past
  · exact aged.past other

theorem Aged.acquire (aged : pool.Aged clock) (host : String) (port : ℕ) :
    (pool.acquire host port).2.Aged clock := by
  have ordered := aged.ordered (key host port)
  have past := aged.past (key host port)
  have queueEq : KeyedQueues.queue pool.pools (key host port) = pool.queueFor host port := rfl
  unfold ConnectionPool.acquire
  rw [queueEq] at ordered past
  cases queued : pool.queueFor host port with
  | cons entry rest =>
      rw [queued] at ordered past
      exact aged.setQueue (List.pairwise_cons.mp ordered).2
        fun other member => past other (List.mem_cons_of_mem _ member)
  | nil =>
      have touched : (pool.setQueue host port []).Aged clock :=
        aged.setQueue List.Pairwise.nil (by simp)
      dsimp only
      split
      · exact ⟨touched.ordered, touched.past⟩
      · exact touched

theorem Aged.release (aged : pool.Aged clock) (later : clock ≤ now) (client : ℕ)
    (host : String) (port : ℕ) : (pool.release client host port now).Aged now := by
  have ordered := aged.ordered (key host port)
  have past := aged.past (key host port)
  unfold ConnectionPool.release
  split
  · have stored : (pool.setQueue host port (pool.queueFor host port)).Aged now :=
      (aged.later later).setQueue ordered ((aged.later later).past (key host port))
    exact ⟨stored.ordered, stored.past⟩
  · refine (aged.later later).setQueue ?_ ?_
    · rw [List.pairwise_append]
      refine ⟨ordered, List.pairwise_singleton _ _, ?_⟩
      intro entry member added addedMember
      obtain rfl := List.mem_singleton.mp addedMember
      exact (past entry member).trans later
    · intro entry member
      rcases List.mem_append.mp member with old | added
      · exact (past entry old).trans later
      · obtain rfl := List.mem_singleton.mp added
        exact le_rfl

/-- An entry in front of an expired one is expired. -/
theorem expired_of_le {earlier later : PoolEntry} (ordered : earlier.idleSince ≤ later.idleSince)
    (old : pool.expired now later = true) : pool.expired now earlier = true := by
  unfold expired at *
  simp only [decide_eq_true_eq] at *
  exact old.trans (Int.tdiv_le_tdiv (by decide) (by omega))

theorem queue_cleanup (pool : ConnectionPool) (now : ℤ) (key : String) :
    KeyedQueues.queue (pool.cleanup now).pools key =
      (KeyedQueues.queue pool.pools key).dropWhile (pool.expired now) :=
  KeyedQueues.queue_trim pool.pools rfl key

theorem Aged.queue_cleanup (aged : pool.Aged clock) (now : ℤ) (key : String) :
    KeyedQueues.queue (pool.cleanup now).pools key =
      (KeyedQueues.queue pool.pools key).filter fun entry => !pool.expired now entry := by
  rw [ConnectionPool.queue_cleanup]
  exact KeyedQueues.dropWhile_eq_filter
    ((aged.ordered key).imp fun ordered old => expired_of_le ordered old)

theorem Aged.cleanup (aged : pool.Aged clock) (later : clock ≤ now) :
    (pool.cleanup now).Aged now := by
  constructor
  · intro key
    rw [aged.queue_cleanup]
    exact (aged.ordered key).filter _
  · intro key entry member
    rw [aged.queue_cleanup] at member
    exact (aged.past key entry (List.mem_of_mem_filter member)).trans later

end ConnectionPool

/-- The pool and its users under a clock that never goes back. -/
structure TimedPool where
  system : PoolSystem
  clock : ℤ

namespace TimedPool

open ConnectionPool

def new (config : PoolConfig) (clock : ℤ) : TimedPool where
  system := .new config
  clock := clock

/-- The reading that an operation takes of the clock, if any. -/
def reading : PoolSystem.Action → Option ℤ
  | .acquire _ _ => none
  | .release _ _ _ now => some now
  | .cleanup now => some now

/-- One call; a client may be released that is none of the pool's. -/
def step (timed : TimedPool) (action : PoolSystem.Action) : Option TimedPool :=
  let now := (reading action).getD timed.clock
  if now < timed.clock then none else some ⟨timed.system.perform action, now⟩

def Proper (timed : TimedPool) (action : PoolSystem.Action) : Prop :=
  timed.system.Proper action

instance (timed : TimedPool) (action : PoolSystem.Action) : Decidable (timed.Proper action) :=
  inferInstanceAs (Decidable (timed.system.Proper action))

variable {timed next : TimedPool} {action : PoolSystem.Action}

theorem step_cases (taken : timed.step action = some next) :
    timed.clock ≤ (reading action).getD timed.clock ∧
      next = ⟨timed.system.perform action, (reading action).getD timed.clock⟩ := by
  unfold step at taken
  dsimp only at taken
  split at taken
  · cases taken
  · rename_i forward
    exact ⟨not_lt.mp forward, (Option.some.inj taken).symm⟩

theorem step_aged (aged : timed.system.pool.Aged timed.clock)
    (taken : timed.step action = some next) : next.system.pool.Aged next.clock := by
  obtain ⟨forward, rfl⟩ := step_cases taken
  cases action with
  | acquire host port => exact aged.acquire host port
  | release client host port now => exact aged.release forward client host port
  | cleanup now => exact aged.cleanup forward

theorem reaches_aged {config : PoolConfig} {start : ℤ}
    (reaches : Reaches step Unrestricted (new config start) timed) :
    timed.system.pool.Aged timed.clock :=
  reaches.invariant (fun state => state.system.pool.Aged state.clock) (new_aged config start)
    fun _ _ _ aged _ taken => step_aged aged taken

theorem reaches_conserved {config : PoolConfig} {start : ℤ}
    (reaches : Reaches step Proper (new config start) timed) :
    timed.system.pool.Conserved timed.system.held := by
  refine reaches.invariant (fun state => state.system.pool.Conserved state.system.held)
    (new_conserved config) ?_
  intro before action after books proper taken
  obtain ⟨-, rfl⟩ := step_cases taken
  exact PoolSystem.perform_conserved books proper

/-- A cleanup keeps exactly the young idle clients of every key in their order,
forgets the keys that have none, and counts down once for each client it evicts,
but not below zero; it comes to zero early only if clients were released that are
none of the pool's. -/
theorem cleanup_exact {config : PoolConfig} {start : ℤ}
    (reaches : Reaches step Unrestricted (new config start) timed) {now : ℤ}
    (cleaned : timed.step (.cleanup now) = some next) :
    (∀ key, KeyedQueues.queue next.system.pool.pools key =
      (KeyedQueues.queue timed.system.pool.pools key).filter fun entry =>
        (now - entry.idleSince).tdiv 1000000000 < timed.system.pool.config.idleTimeout) ∧
    (∀ key, key ∈ next.system.pool.pools ↔
      KeyedQueues.queue next.system.pool.pools key ≠ []) ∧
    (∃ evicted : List ℕ,
      (evicted ++ next.system.pool.idleClients).Perm timed.system.pool.idleClients ∧
      next.system.pool.totalCreated = timed.system.pool.totalCreated - evicted.length ∧
      (Reaches step Proper (new config start) timed →
        next.system.pool.totalCreated + evicted.length = timed.system.pool.totalCreated)) := by
  have aged := reaches_aged reaches
  obtain ⟨-, rfl⟩ := step_cases cleaned
  refine ⟨?_, ?_, (timed.system.pool.evicted now).map PoolEntry.client, ?_, ?_, ?_⟩
  · intro key
    dsimp only [PoolSystem.perform]
    rw [aged.queue_cleanup]
    refine List.filter_congr fun entry _ => ?_
    rw [expired, ← decide_not, decide_eq_decide, not_le]
  · exact KeyedQueues.mem_trim_iff _ _
  · exact cleanup_idle timed.system.pool now
  · rw [List.length_map]
    exact cleanup_totalCreated timed.system.pool now
  · intro proper
    have within := (reaches_conserved proper).evicted_le now
    dsimp only [PoolSystem.perform]
    rw [cleanup_totalCreated, List.length_map]
    exact Nat.sub_add_cancel within

/-- Two clients of one host and one of another; after 31 seconds only the client
released last is young. -/
theorem cleanup_exact_two_hosts :
    ∃ timed next, Reaches step Unrestricted (new ⟨3, 30⟩ 0) timed ∧
      timed.step (.cleanup 31000000000) = some next ∧
      next.system.pool.idleClients = [1] ∧ "b:80" ∉ next.system.pool.pools ∧
      ∃ evicted : List ℕ,
        (evicted ++ next.system.pool.idleClients).Perm timed.system.pool.idleClients ∧
        next.system.pool.totalCreated + evicted.length = timed.system.pool.totalCreated := by
  have evaluated :
      (guardedRun step Proper (new ⟨3, 30⟩ 0)
        [.acquire "a" 80, .acquire "a" 80, .acquire "b" 80, .release 0 "a" 80 0,
          .release 2 "b" 80 500000000, .release 1 "a" 80 2000000000]).bind (fun timed =>
        (timed.step (.cleanup 31000000000)).map fun next =>
          (next.system.pool.idleClients, decide ("b:80" ∈ next.system.pool.pools))) =
      some ([1], false) := by
    decide +kernel
  obtain ⟨timed, executes, mapped⟩ := Option.bind_eq_some_iff.mp evaluated
  obtain ⟨next, cleaned, fields⟩ := Option.map_eq_some_iff.mp mapped
  simp only [Prod.mk.injEq, decide_eq_false_iff_not] at fields
  have proper := reaches_of_guardedRun executes
  have reaches := reaches_of_run (run_of_guardedRun executes)
  obtain ⟨-, -, evicted, split, -, exactly⟩ := cleanup_exact reaches cleaned
  exact ⟨timed, next, reaches, cleaned, fields.1, fields.2, evicted, split, exactly proper⟩

/-- A client that the pool did not make is released and evicted: it is not
counted, so the counter stays at zero. -/
theorem cleanup_evicts_uncounted :
    ∃ timed next, Reaches step Unrestricted (new ⟨3, 30⟩ 0) timed ∧
      timed.step (.cleanup 31000000000) = some next ∧
      timed.system.pool.idleClients = [7] ∧ next.system.pool.idleClients = [] ∧
      timed.system.pool.totalCreated = 0 ∧ next.system.pool.totalCreated = 0 := by
  have evaluated :
      (run step (new ⟨3, 30⟩ 0) [.release 7 "a" 80 0]).bind (fun timed =>
        (timed.step (.cleanup 31000000000)).map fun next =>
          (timed.system.pool.idleClients, next.system.pool.idleClients,
            timed.system.pool.totalCreated, next.system.pool.totalCreated)) =
      some ([7], [], 0, 0) := by
    decide +kernel
  obtain ⟨timed, executes, mapped⟩ := Option.bind_eq_some_iff.mp evaluated
  obtain ⟨next, cleaned, fields⟩ := Option.map_eq_some_iff.mp mapped
  simp only [Prod.mk.injEq] at fields
  exact ⟨timed, next, reaches_of_run executes, cleaned, fields⟩

end TimedPool

end Cppload
