import Cppload.ConnectionPool

/-!
# Conservation of pooled clients

The global counter of `ConnectionPool` counts clients that sit in some queue and
clients that users hold.  The three operations are described by how they move
clients between these places, and the description is kept apart from how the
pool's users are organised, so that the load engine can use it too.
-/

namespace Cppload

open Transition

namespace ConnectionPool

variable {pool after : ConnectionPool} {host : String} {port client : ℕ}

@[simp]
theorem setQueue_config (entries : List PoolEntry) :
    (pool.setQueue host port entries).config = pool.config := rfl

@[simp]
theorem setQueue_totalCreated (entries : List PoolEntry) :
    (pool.setQueue host port entries).totalCreated = pool.totalCreated := rfl

@[simp]
theorem setQueue_nextClient (entries : List PoolEntry) :
    (pool.setQueue host port entries).nextClient = pool.nextClient := rfl

/-- Replacing a queue trades its clients for those of the new queue. -/
theorem idleClients_setQueue_perm (pool : ConnectionPool) (host : String) (port : ℕ)
    (entries : List PoolEntry) :
    ((pool.setQueue host port entries).idleClients ++
        (pool.queueFor host port).map PoolEntry.client).Perm
      (pool.idleClients ++ entries.map PoolEntry.client) := by
  have exchanged := KeyedQueues.contents_insert_perm pool.pools (key host port) entries
  simpa only [idleClients, setQueue, queueFor, List.map_append] using
    exchanged.map PoolEntry.client

theorem length_queueFor_le (pool : ConnectionPool) (host : String) (port : ℕ) :
    (pool.queueFor host port).length ≤ pool.idleClients.length := by
  simpa only [idleClients, queueFor, List.length_map] using
    KeyedQueues.length_queue_le pool.pools (key host port)

/-- What `acquire` can do. -/
inductive Acquired (pool : ConnectionPool) : Option ℕ → ConnectionPool → Prop
  | reused {client : ℕ} {after : ConnectionPool}
      (moved : pool.idleClients.Perm (client :: after.idleClients))
      (total : after.totalCreated = pool.totalCreated)
      (names : after.nextClient = pool.nextClient)
      (config : after.config = pool.config) :
      Acquired pool (some client) after
  | created {after : ConnectionPool}
      (room : pool.totalCreated < pool.config.maxConnections)
      (idle : after.idleClients.Perm pool.idleClients)
      (total : after.totalCreated = pool.totalCreated + 1)
      (names : after.nextClient = pool.nextClient + 1)
      (config : after.config = pool.config) :
      Acquired pool (some pool.nextClient) after
  | exhausted {after : ConnectionPool}
      (cap : pool.config.maxConnections ≤ pool.totalCreated)
      (idle : after.idleClients.Perm pool.idleClients)
      (total : after.totalCreated = pool.totalCreated)
      (names : after.nextClient = pool.nextClient)
      (config : after.config = pool.config) :
      Acquired pool none after

theorem acquire_spec (pool : ConnectionPool) (host : String) (port : ℕ) :
    Acquired pool (pool.acquire host port).1 (pool.acquire host port).2 := by
  have exchanged := idleClients_setQueue_perm pool host port
  unfold acquire
  cases queued : pool.queueFor host port with
  | cons entry rest =>
      have moved := exchanged rest
      rw [queued, List.map_cons] at moved
      refine .reused ?_ rfl rfl rfl
      have cancelled : ((pool.setQueue host port rest).idleClients ++
          entry.client :: rest.map PoolEntry.client).Perm
          ((entry.client :: (pool.setQueue host port rest).idleClients) ++
            rest.map PoolEntry.client) := List.perm_middle
      exact ((List.perm_append_right_iff _).mp (cancelled.symm.trans moved)).symm
  | nil =>
      have kept := exchanged []
      rw [queued] at kept
      simp only [List.map_nil, List.append_nil] at kept
      by_cases room : pool.totalCreated < pool.config.maxConnections
      · simp only [room, if_true]
        exact .created room kept rfl rfl rfl
      · simp only [room, if_false]
        exact .exhausted (not_lt.mp room) kept rfl rfl rfl

theorem Acquired.config_eq {answer : Option ℕ} (spec : Acquired pool answer after) :
    after.config = pool.config := by
  cases spec <;> assumption

theorem release_idle (room : pool.full host port = false) (client : ℕ) (now : ℤ) :
    (pool.release client host port now).idleClients.Perm (client :: pool.idleClients) := by
  have moved := idleClients_setQueue_perm pool host port
    (pool.queueFor host port ++ [⟨client, now⟩])
  rw [List.map_append, List.map_singleton, ← List.append_assoc] at moved
  simp only [release, room, Bool.false_eq_true, if_false]
  have rotated : (pool.idleClients ++ (pool.queueFor host port).map PoolEntry.client ++
      [client]).Perm ((client :: pool.idleClients) ++
        (pool.queueFor host port).map PoolEntry.client) :=
    List.perm_append_singleton _ _
  exact (List.perm_append_right_iff _).mp (moved.trans rotated)

theorem release_totalCreated (room : pool.full host port = false) (client : ℕ) (now : ℤ) :
    (pool.release client host port now).totalCreated = pool.totalCreated := by
  simp [release, room]

@[simp]
theorem release_nextClient (client : ℕ) (now : ℤ) :
    (pool.release client host port now).nextClient = pool.nextClient := by
  unfold release
  split <;> rfl

@[simp]
theorem release_config (client : ℕ) (now : ℤ) :
    (pool.release client host port now).config = pool.config := by
  unfold release
  split <;> rfl

theorem foldl_decrement {Entry : Type*} (entries : List Entry) (count : ℕ) :
    entries.foldl (fun count _ => decrement count) count = count - entries.length := by
  induction entries generalizing count with
  | nil => simp
  | cons entry entries ih =>
      rw [List.foldl_cons, ih, decrement, List.length_cons]
      split <;> omega

/-- The entries that `cleanup` pops. -/
def evicted (pool : ConnectionPool) (now : ℤ) : List PoolEntry :=
  pool.pools.entries.flatMap fun pair => pair.2.takeWhile (pool.expired now)

theorem foldl_sub_length {Pair Entry : Type*} (popped : Pair → List Entry)
    (pairs : List Pair) (count : ℕ) :
    pairs.foldl (fun total pair => total - (popped pair).length) count =
      count - (pairs.flatMap popped).length := by
  induction pairs generalizing count with
  | nil => simp
  | cons pair pairs ih =>
      rw [List.foldl_cons, ih, List.flatMap_cons, List.length_append]
      omega

theorem cleanup_totalCreated (pool : ConnectionPool) (now : ℤ) :
    (pool.cleanup now).totalCreated =
      pool.totalCreated - (pool.evicted now).length := by
  simp only [cleanup, evicted, foldl_decrement]
  exact foldl_sub_length _ pool.pools.entries pool.totalCreated

/-- `cleanup` splits the idle clients into the evicted and the kept ones. -/
theorem cleanup_idle (pool : ConnectionPool) (now : ℤ) :
    ((pool.evicted now).map PoolEntry.client ++ (pool.cleanup now).idleClients).Perm
      pool.idleClients := by
  have rejoined : (pool.evicted now ++
      KeyedQueues.contents (pool.cleanup now).pools).Perm
        (KeyedQueues.contents pool.pools) := by
    have split := List.flatMap_append_perm pool.pools.entries
      (fun pair => pair.2.takeWhile (pool.expired now))
      (fun pair => pair.2.dropWhile (pool.expired now))
    simp only [List.takeWhile_append_dropWhile] at split
    rw [cleanup, KeyedQueues.contents_trim]
    exact split
  simpa only [idleClients, List.map_append] using rejoined.map PoolEntry.client

@[simp]
theorem cleanup_nextClient (pool : ConnectionPool) (now : ℤ) :
    (pool.cleanup now).nextClient = pool.nextClient := rfl

@[simp]
theorem cleanup_config (pool : ConnectionPool) (now : ℤ) :
    (pool.cleanup now).config = pool.config := rfl

theorem stats_idleConnections (pool : ConnectionPool) :
    pool.stats.idleConnections = pool.idleClients.length := by
  simp only [stats, idleClients, KeyedQueues.contents, List.length_map,
    List.length_flatMap]

/-- The books of the pool: every created client is idle or held, and no client is in
two places. -/
structure Conserved (pool : ConnectionPool) (held : List ℕ) : Prop where
  counted : pool.totalCreated = pool.idleClients.length + held.length
  bounded : pool.totalCreated ≤ pool.config.maxConnections
  distinct : (pool.idleClients ++ held).Nodup
  named : ∀ client ∈ pool.idleClients ++ held, client < pool.nextClient

theorem new_conserved (config : PoolConfig) : (new config).Conserved [] :=
  ⟨rfl, Nat.zero_le _, List.nodup_nil, by simp [idleClients, new]⟩

namespace Conserved

variable {held : List ℕ}

/-- Clients may change places, as long as none is made or lost. -/
theorem rearrange {next : ConnectionPool} {others : List ℕ} (books : pool.Conserved held)
    (same : (next.idleClients ++ others).Perm (pool.idleClients ++ held))
    (total : next.totalCreated = pool.totalCreated) (names : next.nextClient = pool.nextClient)
    (config : next.config = pool.config) : next.Conserved others where
  counted := by
    have lengths := same.length_eq
    have counted := books.counted
    simp only [List.length_append] at lengths
    omega
  bounded := by
    rw [total, config]
    exact books.bounded
  distinct := same.nodup_iff.mpr books.distinct
  named := by
    intro client member
    rw [names]
    exact books.named client (same.mem_iff.mp member)

theorem perm {reordered : List ℕ} (books : pool.Conserved held)
    (same : held.Perm reordered) : pool.Conserved reordered :=
  books.rearrange (same.symm.append_left _) rfl rfl rfl

/-- An acquire moves the client it returns into its user's hands. -/
theorem acquire (books : pool.Conserved held) (host : String) (port : ℕ) :
    (pool.acquire host port).2.Conserved
      ((pool.acquire host port).1.toList ++ held) := by
  generalize resultEq : pool.acquire host port = result
  obtain ⟨answer, next⟩ := result
  have spec := acquire_spec pool host port
  rw [resultEq] at spec
  dsimp only at spec ⊢
  cases spec with
  | @reused client _ moved total names config =>
      have rearranged : (next.idleClients ++ ([client] ++ held)).Perm
          (pool.idleClients ++ held) :=
        List.perm_middle.trans (moved.symm.append_right held)
      exact books.rearrange rearranged total names config
  | created room idle total names config =>
      have rearranged : (next.idleClients ++ ([pool.nextClient] ++ held)).Perm
          (pool.nextClient :: (pool.idleClients ++ held)) :=
        List.perm_middle.trans ((idle.append_right held).cons _)
      refine ⟨?_, ?_, ?_, ?_⟩
      · have lengths := idle.length_eq
        simp only [Option.toList_some, List.length_append, List.length_cons,
          List.length_nil] at lengths ⊢
        have counted := books.counted
        omega
      · rw [total, config]
        exact room
      · refine rearranged.nodup_iff.mpr (List.nodup_cons.mpr ⟨?_, books.distinct⟩)
        intro member
        exact lt_irrefl _ (books.named _ member)
      · intro other member
        rw [names]
        rcases List.mem_cons.mp (rearranged.mem_iff.mp member) with rfl | old
        · exact Nat.lt_succ_self _
        · exact (books.named other old).trans (Nat.lt_succ_self _)
  | exhausted cap idle total names config =>
      exact books.rearrange (idle.append_right held) total names config

/-- While somebody holds a client, no queue is at the cap. -/
theorem not_full (books : pool.Conserved (client :: held))
    (host : String) (port : ℕ) : pool.full host port = false := by
  have within := length_queueFor_le pool host port
  have counted := books.counted
  have bounded := books.bounded
  simp only [List.length_cons] at counted
  simp only [full, decide_eq_false_iff_not, not_le]
  omega

/-- A release moves the client from its user to the queue of the given key. -/
theorem release (books : pool.Conserved (client :: held))
    (host : String) (port : ℕ) (now : ℤ) :
    (pool.release client host port now).Conserved held := by
  have room := books.not_full host port
  have moved := release_idle room client now
  have rearranged : ((pool.release client host port now).idleClients ++ held).Perm
      (pool.idleClients ++ client :: held) :=
    (moved.append_right held).trans List.perm_middle.symm
  exact books.rearrange rearranged (release_totalCreated room client now)
    (release_nextClient client now) (release_config client now)

theorem evicted_le (books : pool.Conserved held) (now : ℤ) :
    (pool.evicted now).length ≤ pool.totalCreated := by
  have lengths := (cleanup_idle pool now).length_eq
  have counted := books.counted
  simp only [List.length_append, List.length_map] at lengths
  omega

/-- A cleanup forgets exactly the evicted clients. -/
theorem cleanup (books : pool.Conserved held) (now : ℤ) :
    (pool.cleanup now).Conserved held := by
  have split := cleanup_idle pool now
  have kept : (pool.cleanup now).idleClients.Sublist
      ((pool.evicted now).map PoolEntry.client ++ (pool.cleanup now).idleClients) :=
    List.sublist_append_right _ _
  refine ⟨?_, ?_, ?_, ?_⟩
  · have lengths := split.length_eq
    have counted := books.counted
    rw [cleanup_totalCreated]
    simp only [List.length_append, List.length_map] at lengths
    omega
  · rw [cleanup_totalCreated, cleanup_config]
    have bounded := books.bounded
    omega
  · have whole := (split.append_right held).nodup_iff.mpr books.distinct
    exact whole.sublist (kept.append_right held)
  · intro other member
    rw [cleanup_nextClient]
    apply books.named other
    rcases List.mem_append.mp member with idle | byUser
    · exact List.mem_append_left _ (split.subset (kept.subset idle))
    · exact List.mem_append_right _ byUser

/-- `stats` reports the held and the idle clients. -/
theorem stats_eq (books : pool.Conserved held) :
    pool.stats =
      { activeConnections := held.length
        idleConnections := pool.idleClients.length
        totalCreated := pool.totalCreated } := by
  have idle := stats_idleConnections pool
  have counted := books.counted
  simp only [stats] at idle ⊢
  rw [idle]
  congr 1
  split <;> omega

end Conserved

end ConnectionPool

namespace PoolSystem

open ConnectionPool

theorem step_cases {before after : PoolSystem} {action : Action}
    (taken : before.step action = some after) :
    before.Proper action ∧ after = before.perform action := by
  unfold step at taken
  split at taken
  · rename_i proper
    exact ⟨proper, (Option.some.inj taken).symm⟩
  · contradiction

theorem perform_conserved {system : PoolSystem} {action : Action}
    (books : system.pool.Conserved system.held) (proper : system.Proper action) :
    (system.perform action).pool.Conserved (system.perform action).held := by
  cases action with
  | acquire host port => exact books.acquire host port
  | release client host port now =>
      exact (books.perm (List.perm_cons_erase proper)).release host port now
  | cleanup now => exact books.cleanup now

theorem perform_config (system : PoolSystem) (action : Action) :
    (system.perform action).pool.config = system.pool.config := by
  cases action with
  | acquire host port => exact (acquire_spec system.pool host port).config_eq
  | release client host port now => exact release_config client now
  | cleanup now => rfl

/-- In every reachable state the counter is the number of idle and held clients
and stays below the cap, no client is in two places, `stats` reports these
numbers, no held client could be refused by `release`, and `cleanup` counts
down once for every entry it pops. -/
theorem reachable_conserved {config : PoolConfig} {system : PoolSystem}
    (reaches : Reaches step Unrestricted (new config) system) :
    system.pool.totalCreated =
        system.pool.idleClients.length + system.held.length ∧
      system.pool.totalCreated ≤ config.maxConnections ∧
      (system.pool.idleClients ++ system.held).Nodup ∧
      system.pool.stats =
        { activeConnections := system.held.length
          idleConnections := system.pool.idleClients.length
          totalCreated := system.pool.totalCreated } ∧
      (∀ client ∈ system.held, ∀ host port, system.pool.full host port = false) ∧
      ∀ now, (system.pool.cleanup now).totalCreated + (system.pool.evicted now).length =
        system.pool.totalCreated := by
  have books : system.pool.Conserved system.held ∧ system.pool.config = config := by
    refine reaches.invariant
      (fun state => state.pool.Conserved state.held ∧ state.pool.config = config)
      ⟨new_conserved config, rfl⟩ fun before action after kept _ taken => ?_
    obtain ⟨proper, rfl⟩ := step_cases taken
    exact ⟨perform_conserved kept.1 proper, (perform_config before action).trans kept.2⟩
  obtain ⟨books, configEq⟩ := books
  refine ⟨books.counted, configEq ▸ books.bounded, books.distinct, books.stats_eq, ?_, ?_⟩
  · intro client member host port
    exact (books.perm (List.perm_cons_erase member)).not_full host port
  · intro now
    have within := books.evicted_le now
    rw [cleanup_totalCreated]
    omega

/-- Two users on two hosts, one of which returns its client under the other
host. -/
theorem reachable_conserved_crossed_release :
    ∃ system,
      Reaches step Unrestricted (new ⟨2, 30⟩) system ∧
      system.held = [1] ∧ system.pool.idleClients = [0] ∧
      system.pool.totalCreated =
        system.pool.idleClients.length + system.held.length := by
  have evaluated :
      ((run step (new ⟨2, 30⟩)
        [.acquire "a" 80, .acquire "b" 80, .release 0 "b" 80 5]).map fun system =>
          (system.held, system.pool.idleClients)) = some ([1], [0]) := by
    decide +kernel
  obtain ⟨system, executes, fields⟩ := Option.map_eq_some_iff.mp evaluated
  have reaches := reaches_of_run executes
  exact ⟨system, reaches, congrArg Prod.fst fields, congrArg Prod.snd fields,
    (reachable_conserved reaches).1⟩

end PoolSystem

end Cppload
