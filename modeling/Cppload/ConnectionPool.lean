import Cppload.KeyedQueues
import Cppload.TransitionSystem

/-!
# The keep-alive connection pool

`ConnectionPool` keeps idle clients in one queue per `host:port` and counts the
clients it has created in one global counter.  Every public operation is one
critical section.  Clients are named by the order of their construction, so two
clients are the same object exactly when their names agree.
-/

namespace Cppload

/-- The settings of `PoolConfig` that the pool itself reads; `idleTimeout` is in
whole seconds. -/
structure PoolConfig where
  maxConnections : ℕ
  idleTimeout : ℤ
  deriving DecidableEq, Repr

/-- An idle client and the steady-clock reading, in nanoseconds, of its
release. -/
structure PoolEntry where
  client : ℕ
  idleSince : ℤ
  deriving DecidableEq, Repr

/-- `ConnectionPool::Impl`.  `nextClient` names the next client to be
constructed. -/
structure ConnectionPool where
  config : PoolConfig
  pools : KeyedQueues String PoolEntry
  totalCreated : ℕ
  nextClient : ℕ
  deriving DecidableEq

namespace ConnectionPool

/-- A pool that has created nothing. -/
def new (config : PoolConfig) : ConnectionPool where
  config := config
  pools := ∅
  totalCreated := 0
  nextClient := 0

/-- `host + ":" + std::to_string(port)`. -/
def key (host : String) (port : ℕ) : String :=
  host ++ ":" ++ toString port

/-- The queue that `pools_[key]` refers to. -/
def queueFor (pool : ConnectionPool) (host : String) (port : ℕ) : List PoolEntry :=
  KeyedQueues.queue pool.pools (key host port)

/-- Store a queue under its key. -/
def setQueue (pool : ConnectionPool) (host : String) (port : ℕ)
    (entries : List PoolEntry) : ConnectionPool :=
  { pool with pools := pool.pools.insert (key host port) entries }

/-- `acquire`: the oldest idle client of the key, else a new client below the
cap, else null.  Looking the key up inserts an empty queue. -/
def acquire (pool : ConnectionPool) (host : String) (port : ℕ) :
    Option ℕ × ConnectionPool :=
  match pool.queueFor host port with
  | entry :: rest => (some entry.client, pool.setQueue host port rest)
  | [] =>
      let touched := pool.setQueue host port []
      if pool.totalCreated < pool.config.maxConnections then
        (some pool.nextClient,
          { touched with
            totalCreated := pool.totalCreated + 1
            nextClient := pool.nextClient + 1 })
      else
        (none, touched)

/-- `if (total_created_ > 0) total_created_--`. -/
def decrement (count : ℕ) : ℕ :=
  if 0 < count then count - 1 else count

/-- The test by which `release` refuses a client: its queue is at the cap. -/
def full (pool : ConnectionPool) (host : String) (port : ℕ) : Bool :=
  pool.config.maxConnections ≤ (pool.queueFor host port).length

/-- `release` at clock reading `now`. -/
def release (pool : ConnectionPool) (client : ℕ) (host : String) (port : ℕ)
    (now : ℤ) : ConnectionPool :=
  if pool.full host port then
    { pool.setQueue host port (pool.queueFor host port) with
      totalCreated := decrement pool.totalCreated }
  else
    pool.setQueue host port (pool.queueFor host port ++ [⟨client, now⟩])

/-- `duration_cast<seconds>(now - entry.idle_since) >= idle_timeout`. -/
def expired (pool : ConnectionPool) (now : ℤ) (entry : PoolEntry) : Bool :=
  pool.config.idleTimeout ≤ (now - entry.idleSince).tdiv 1000000000

/-- `cleanup` at clock reading `now`: pop expired entries from the front of
every queue, counting each down, and erase the keys left without entries. -/
def cleanup (pool : ConnectionPool) (now : ℤ) : ConnectionPool :=
  { pool with
    pools := KeyedQueues.trim pool.pools fun entries =>
      entries.dropWhile (pool.expired now)
    totalCreated := pool.pools.entries.foldl
      (fun total pair => (pair.2.takeWhile (pool.expired now)).foldl
        (fun count _ => decrement count) total)
      pool.totalCreated }

/-- `ConnectionPool::Stats`. -/
structure Stats where
  activeConnections : ℕ
  idleConnections : ℕ
  totalCreated : ℕ
  deriving DecidableEq, Repr

/-- `stats`. -/
def stats (pool : ConnectionPool) : Stats :=
  let idle := (pool.pools.entries.map fun pair => pair.2.length).sum
  { activeConnections :=
      if idle < pool.totalCreated then pool.totalCreated - idle else 0
    idleConnections := idle
    totalCreated := pool.totalCreated }

/-- The idle clients over all keys. -/
def idleClients (pool : ConnectionPool) : List ℕ :=
  (KeyedQueues.contents pool.pools).map PoolEntry.client

end ConnectionPool

/-- A pool together with the clients its users hold. -/
structure PoolSystem where
  pool : ConnectionPool
  held : List ℕ

namespace PoolSystem

/-- A new pool without users. -/
def new (config : PoolConfig) : PoolSystem where
  pool := .new config
  held := []

/-- One critical section on behalf of some user. -/
inductive Action where
  | acquire (host : String) (port : ℕ)
  | release (client : ℕ) (host : String) (port : ℕ) (now : ℤ)
  | cleanup (now : ℤ)

/-- The pool's operation, and what it does to the clients that are held. -/
def perform (system : PoolSystem) : Action → PoolSystem
  | .acquire host port =>
      let result := system.pool.acquire host port
      { pool := result.2
        held := result.1.toList ++ system.held }
  | .release client host port now =>
      { pool := system.pool.release client host port now
        held := system.held.erase client }
  | .cleanup now => { system with pool := system.pool.cleanup now }

/-- Only clients are released that came from this pool and were not released since. -/
def Proper (system : PoolSystem) : Action → Prop
  | .release client _ _ _ => client ∈ system.held
  | _ => True

instance (system : PoolSystem) : (action : Action) → Decidable (system.Proper action)
  | .release client _ _ _ => inferInstanceAs (Decidable (client ∈ system.held))
  | .acquire _ _ | .cleanup _ => .isTrue trivial

/-- Users release only clients they hold, under any key, and hold what
`acquire` gave them until they do. -/
def step (system : PoolSystem) (action : Action) : Option PoolSystem :=
  if system.Proper action then some (system.perform action) else none

end PoolSystem

end Cppload
