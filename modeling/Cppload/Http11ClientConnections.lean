import Cppload.Http11ClientCompletion
import Cppload.Roster

/-!
# Which request uses which connection

A callback of the client can do only a few things with the connection of its
request and with the cached connection.  They are listed once, as relations
between the phase of a request before and after, and what holds of the
connections of all requests follows from the lists.

The cached connection stays in the cache while a request is using it.  A second
call for the same endpoint therefore writes on it as well; only when no call is
made while the cached connection is in use does every connection carry one
request at a time.
-/

namespace Cppload.Http11

open Transition

/-- The stream that the outstanding operation of a request belongs to. -/
def Phase.stream? : Phase → Option ℕ
  | .connecting stream _ | .handshaking stream => some stream
  | .writing connection _ | .reading connection _ => some connection.stream
  | .resolving | .idle => none

/-- The request is between the start of its write on the stream and the end of
its read. -/
def Phase.uses (stream : ℕ) : Phase → Bool
  | .writing connection _ | .reading connection _ => connection.stream = stream
  | _ => false

/-- The request uses a connection it took from the cache. -/
def Phase.reusing : Phase → Bool
  | .writing _ reused | .reading _ reused => reused
  | _ => false

/-- The cached connection was left alone or dropped. -/
structure Client.Settled (before after : Client) : Prop where
  nextStream : after.nextStream = before.nextStream
  cached : after.cached = before.cached ∨ after.cached = none

theorem Client.Settled.refl (client : Client) : client.Settled client :=
  ⟨rfl, .inl rfl⟩

theorem Client.settled_dropCached (client : Client) (connection : Connection) :
    client.Settled (client.dropCached connection) := by
  unfold Client.dropCached
  split
  · exact ⟨rfl, .inr rfl⟩
  · exact .refl client

/-- All that a callback can do, from the phase of its request before to the
client and the phase after. -/
inductive Turn (client : Client) : Phase → Client → Phase → Prop
  | finish {phase : Phase} {after : Client} (settled : client.Settled after) :
      Turn client phase after .idle
  | resolve {phase : Phase} {after : Client} (settled : client.Settled after) :
      Turn client phase after .resolving
  | connect (tls : Bool) :
      Turn client .resolving { client with nextStream := client.nextStream + 1 }
        (.connecting client.nextStream tls)
  | handshake (stream : ℕ) :
      Turn client (.connecting stream true) client (.handshaking stream)
  | send (connection : Connection) :
      Turn client (.connecting connection.stream false) client (.writing connection false)
  | sendTls (connection : Connection) :
      Turn client (.handshaking connection.stream) client (.writing connection false)
  | await (connection : Connection) (reused : Bool) :
      Turn client (.writing connection reused) client (.reading connection reused)
  | keep (connection : Connection) :
      Turn client (.reading connection false) (client.cacheConnection connection) .idle

/-- All that a call of `async_request` can do. -/
inductive Opening (client : Client) (request : Request) (peek : Peek) :
    Client → Phase → Prop
  | finish {after : Client} (settled : client.Settled after) :
      Opening client request peek after .idle
  | resolve {after : Client} (settled : client.Settled after) :
      Opening client request peek after .resolving
  | reuse (connection : Connection) (reusable : client.reusable request = some connection)
      (alive : cachedConnectionDead peek = false) :
      Opening client request peek client (.writing connection true)

variable {isVerb : String → Bool} {client : Client} {exchange : Exchange}
variable {completion : Completion}

@[simp]
theorem Exchange.fail_phase (exchange : Exchange) (failure : BuildFailure) :
    (exchange.fail failure).phase = .idle := by
  cases failure <;> rfl

/-- A request for a fresh connection waits for the resolver, or no message is
built of it. -/
theorem requestFresh_cases (Result : Client → Phase → Prop) (refused : Result client .idle)
    (waits : Result client .resolving) (isVerb : String → Bool) (exchange : Exchange) :
    Result (requestFresh isVerb client exchange).1
      (requestFresh isVerb client exchange).2.phase := by
  unfold requestFresh
  split
  · exact (exchange.fail_phase _).symm ▸ refused
  · exact waits

theorem Turn.fresh {after : Client} (settled : client.Settled after) (phase : Phase)
    (isVerb : String → Bool) (exchange : Exchange) :
    Turn client phase (requestFresh isVerb after exchange).1
      (requestFresh isVerb after exchange).2.phase :=
  requestFresh_cases (Turn client phase) (.finish settled) (.resolve settled) isVerb exchange

theorem Opening.fresh {after : Client} (settled : client.Settled after) (request : Request)
    (peek : Peek) (isVerb : String → Bool) (exchange : Exchange) :
    Opening client request peek (requestFresh isVerb after exchange).1
      (requestFresh isVerb after exchange).2.phase :=
  requestFresh_cases (Opening client request peek) (.finish settled) (.resolve settled) isVerb
    exchange

theorem onResolve_turn :
    Turn client .resolving (onResolve client exchange completion).1
      (onResolve client exchange completion).2.phase := by
  unfold onResolve
  split
  · split
    · exact .connect true
    · exact .connect false
  · exact .finish (.refl client)
  · exact .finish (.refl client)

theorem onConnectTcp_turn {stream : ℕ} :
    Turn client (.connecting stream false) (onConnectTcp client exchange stream completion).1
      (onConnectTcp client exchange stream completion).2.phase := by
  unfold onConnectTcp
  split
  · exact .send ⟨stream, _, _, _⟩
  · exact .finish (.refl client)
  · exact .finish (.refl client)

theorem onConnectTls_turn {stream : ℕ} :
    Turn client (.connecting stream true) (onConnectTls client exchange stream completion).1
      (onConnectTls client exchange stream completion).2.phase := by
  unfold onConnectTls
  split
  · split
    · exact .finish (.refl client)
    · exact .handshake stream
  · exact .finish (.refl client)
  · exact .finish (.refl client)

theorem onHandshake_turn {stream : ℕ} :
    Turn client (.handshaking stream) (onHandshake client exchange stream completion).1
      (onHandshake client exchange stream completion).2.phase := by
  unfold onHandshake
  split
  · exact .sendTls ⟨stream, _, _, _⟩
  · exact .finish (.refl client)

theorem onWriteCached_turn {connection : Connection} :
    Turn client (.writing connection true)
      (onWriteCached isVerb client exchange connection completion).1
      (onWriteCached isVerb client exchange connection completion).2.phase := by
  have settled := client.settled_dropCached connection
  unfold onWriteCached
  split
  · exact .await connection true
  · dsimp only
    split
    · exact .fresh settled _ _ _
    · exact .finish settled

theorem onReadCached_turn {connection : Connection} :
    Turn client (.reading connection true)
      (onReadCached isVerb client exchange connection completion).1
      (onReadCached isVerb client exchange connection completion).2.phase := by
  have settled := client.settled_dropCached connection
  unfold onReadCached
  dsimp only
  split
  · exact .finish (.refl client)
  · split
    · exact .fresh settled _ _ _
    · exact .finish settled

theorem onWriteFresh_turn {connection : Connection} :
    Turn client (.writing connection false)
      (onWriteFresh client exchange connection completion).1
      (onWriteFresh client exchange connection completion).2.phase := by
  unfold onWriteFresh
  split
  · exact .await connection false
  · exact .finish (.refl client)

theorem onReadFresh_turn {connection : Connection} :
    Turn client (.reading connection false)
      (onReadFresh client exchange connection completion).1
      (onReadFresh client exchange connection completion).2.phase := by
  unfold onReadFresh
  dsimp only
  split
  · exact .keep connection
  · exact .finish (.refl client)

theorem Turn.grows {before after : Phase} {next : Client}
    (turn : Turn client before next after) : client.nextStream ≤ next.nextStream := by
  cases turn with
  | finish settled | resolve settled => exact settled.nextStream.ge
  | connect => exact Nat.le_succ _
  | handshake | send | sendTls | await | keep => exact le_rfl

theorem Opening.grows {request : Request} {peek : Peek} {next : Client} {phase : Phase}
    (opening : Opening client request peek next phase) :
    client.nextStream ≤ next.nextStream := by
  cases opening with
  | finish settled | resolve settled => exact settled.nextStream.ge
  | reuse => exact le_rfl

/-- Every callback makes one of the turns. -/
theorem complete_turn {result : Client × Exchange}
    (taken : complete isVerb client exchange completion = some result) :
    Turn client exchange.phase result.1 result.2.phase := by
  unfold complete at taken
  cases phaseEq : exchange.phase with
  | resolving =>
      simp only [phaseEq, Option.some.injEq] at taken
      exact taken ▸ onResolve_turn
  | connecting stream tls =>
      cases tls with
      | false =>
          simp only [phaseEq, Option.some.injEq] at taken
          exact taken ▸ onConnectTcp_turn
      | true =>
          simp only [phaseEq, Option.some.injEq] at taken
          exact taken ▸ onConnectTls_turn
  | handshaking stream =>
      simp only [phaseEq, Option.some.injEq] at taken
      exact taken ▸ onHandshake_turn
  | writing connection reused =>
      cases reused with
      | false =>
          simp only [phaseEq, Option.some.injEq] at taken
          exact taken ▸ onWriteFresh_turn
      | true =>
          simp only [phaseEq, Option.some.injEq] at taken
          exact taken ▸ onWriteCached_turn
  | reading connection reused =>
      cases reused with
      | false =>
          simp only [phaseEq, Option.some.injEq] at taken
          exact taken ▸ onReadFresh_turn
      | true =>
          simp only [phaseEq, Option.some.injEq] at taken
          exact taken ▸ onReadCached_turn
  | idle => simp [phaseEq] at taken

/-- Every call of `async_request` is one of the openings. -/
theorem asyncRequest_opening (isVerb : String → Bool) (client : Client) (request : Request)
    (peek : Peek) (startTime : ℤ) :
    Opening client request peek (asyncRequest isVerb client request peek startTime).1
      (asyncRequest isVerb client request peek startTime).2.phase := by
  unfold asyncRequest
  dsimp only
  split
  · exact .finish (.refl client)
  · split
    · rename_i connection reusable
      unfold requestOnCached
      split
      · exact (Exchange.fail_phase _ _).symm ▸ .finish (.refl client)
      · split
        · exact .fresh (client.settled_dropCached connection) request peek isVerb _
        · rename_i alive
          rw [Bool.not_eq_true] at alive
          split
          · exact .reuse connection reusable alive
          · exact .reuse connection reusable alive
    · exact .fresh (.refl client) request peek isVerb _

theorem Phase.stream?_of_uses {phase : Phase} {stream : ℕ} (uses : phase.uses stream = true) :
    phase.stream? = some stream := by
  cases phase <;> simp_all [Phase.uses, Phase.stream?]

/-- The connection that `async_request` reuses is the cached one. -/
theorem Client.cached_of_reusable {request : Request} {connection : Connection}
    (reusable : client.reusable request = some connection) :
    client.cached = some connection :=
  (Option.filter_eq_some_iff.mp reusable).1

def getRoot (host : String) : Request :=
  ⟨"GET", [47], [], [], host, 80, false⟩

/-- An operation that succeeds; a read has brought an empty `200` message. -/
def succeeds : Completion :=
  ⟨.success, ⟨200, 11, [], []⟩, true, 5000⟩

/-- One request from the resolver to the end of its read on a fresh connection. -/
def freshExchange (index : ℕ) : List Action :=
  List.replicate 4 (.complete index succeeds)

namespace System

/-- No stream belongs to two requests, and the cached one only to a request that
took it from the cache. -/
structure Exclusive (system : System) : Prop where
  nodup : (system.exchanges.filterMap fun exchange => exchange.phase.stream?).Nodup
  below : ∀ exchange ∈ system.exchanges, ∀ stream, exchange.phase.stream? = some stream →
    stream < system.client.nextStream
  cachedBelow : ∀ connection, system.client.cached = some connection →
    connection.stream < system.client.nextStream
  cachedReused : ∀ connection, system.client.cached = some connection →
    ∀ exchange ∈ system.exchanges, exchange.phase.stream? = some connection.stream →
      exchange.phase.reusing = true

/-- A call does not write on the cached connection while a request is using it. -/
def Unshared (system : System) : Action → Prop
  | .request request peek _ =>
      ∀ connection ∈ system.client.reusable request, cachedConnectionDead peek = false →
        ∀ exchange ∈ system.exchanges, exchange.phase.uses connection.stream = false
  | _ => True

instance (system : System) : (action : Action) → Decidable (system.Unshared action)
  | .request request peek _ =>
      inferInstanceAs (Decidable (∀ connection ∈ system.client.reusable request,
        cachedConnectionDead peek = false →
          ∀ exchange ∈ system.exchanges, exchange.phase.uses connection.stream = false))
  | .complete _ _ | .setKeepAlive _ | .setMaxBodyBytes _ => .isTrue trivial

namespace Exclusive

variable {system : System}

theorem new (keepAlive : Bool) : (System.new keepAlive).Exclusive where
  nodup := List.nodup_nil
  below := by simp [System.new]
  cachedBelow := by simp [System.new, Client.new]
  cachedReused := by simp [System.new]

/-- The client changes its cache at most by dropping what it holds. -/
theorem settle (exclusive : system.Exclusive) {after : Client}
    (settled : system.client.Settled after) :
    Exclusive { system with client := after } where
  nodup := exclusive.nodup
  below exchange member stream holds := by
    rw [settled.nextStream]
    exact exclusive.below exchange member stream holds
  cachedBelow connection cached := by
    rcases settled.cached with same | dropped
    · rw [settled.nextStream]
      exact exclusive.cachedBelow connection (same ▸ cached)
    · simp [dropped] at cached
  cachedReused connection cached := by
    rcases settled.cached with same | dropped
    · exact exclusive.cachedReused connection (same ▸ cached)
    · simp [dropped] at cached

/-- A request that lets go of its stream. -/
theorem release (exclusive : system.Exclusive) {index : ℕ} {before after : Exchange}
    (found : system.exchanges[index]? = some before)
    (released : after.phase.stream? = none) :
    Exclusive { system with exchanges := system.exchanges.set index after } where
  nodup := by
    cases held : before.phase.stream? with
    | none =>
        exact (Roster.filterMap_set_perm_of_eq found (released.trans held.symm)).nodup_iff.mpr
          exclusive.nodup
    | some stream =>
        have all := (Roster.filterMap_set_perm_of_some found held released).nodup_iff.mp
          exclusive.nodup
        exact (List.nodup_cons.mp all).2
  below exchange member stream holds := by
    rcases List.mem_or_eq_of_mem_set member with old | rfl
    · exact exclusive.below exchange old stream holds
    · simp [released] at holds
  cachedBelow := exclusive.cachedBelow
  cachedReused connection cached exchange member holds := by
    rcases List.mem_or_eq_of_mem_set member with old | rfl
    · exact exclusive.cachedReused connection cached exchange old holds
    · simp [released] at holds

/-- A request that goes on with its stream. -/
theorem hold (exclusive : system.Exclusive) {index : ℕ} {before after : Exchange}
    (found : system.exchanges[index]? = some before)
    (same : after.phase.stream? = before.phase.stream?)
    (reusing : before.phase.reusing = true → after.phase.reusing = true) :
    Exclusive { system with exchanges := system.exchanges.set index after } where
  nodup := (Roster.filterMap_set_perm_of_eq found same).nodup_iff.mpr exclusive.nodup
  below exchange member stream holds := by
    rcases List.mem_or_eq_of_mem_set member with old | rfl
    · exact exclusive.below exchange old stream holds
    · exact exclusive.below before (List.mem_of_getElem? found) stream (same ▸ holds)
  cachedBelow := exclusive.cachedBelow
  cachedReused connection cached exchange member holds := by
    rcases List.mem_or_eq_of_mem_set member with old | rfl
    · exact exclusive.cachedReused connection cached exchange old holds
    · exact reusing (exclusive.cachedReused connection cached before
        (List.mem_of_getElem? found) (same ▸ holds))

/-- A request that makes a new stream. -/
theorem make (exclusive : system.Exclusive) {index : ℕ} {before after : Exchange}
    (found : system.exchanges[index]? = some before)
    (nothing : before.phase.stream? = none)
    (made : after.phase.stream? = some system.client.nextStream) :
    Exclusive
      { client := { system.client with nextStream := system.client.nextStream + 1 }
        exchanges := system.exchanges.set index after } where
  nodup := by
    refine (Roster.filterMap_set_perm_of_none found nothing made).nodup_iff.mpr ?_
    rw [List.nodup_append_comm, List.singleton_append, List.nodup_cons]
    refine ⟨?_, exclusive.nodup⟩
    intro member
    obtain ⟨exchange, old, holds⟩ := List.mem_filterMap.mp member
    exact (exclusive.below exchange old _ holds).false
  below exchange member stream holds := by
    rcases List.mem_or_eq_of_mem_set member with old | rfl
    · exact (exclusive.below exchange old stream holds).trans (Nat.lt_succ_self _)
    · have streamEq := Option.some.inj (made.symm.trans holds)
      exact streamEq ▸ Nat.lt_succ_self _
  cachedBelow connection cached :=
    (exclusive.cachedBelow connection cached).trans (Nat.lt_succ_self _)
  cachedReused connection cached exchange member holds := by
    rcases List.mem_or_eq_of_mem_set member with old | rfl
    · exact exclusive.cachedReused connection cached exchange old holds
    · have streamEq := Option.some.inj (made.symm.trans holds)
      exact absurd streamEq (exclusive.cachedBelow connection cached).ne'

/-- The stream of a request that has been answered becomes the cached one. -/
theorem keep (exclusive : system.Exclusive) {index : ℕ} {before after : Exchange}
    {connection : Connection} (found : system.exchanges[index]? = some before)
    (held : before.phase.stream? = some connection.stream)
    (released : after.phase.stream? = none) :
    Exclusive
      { client := system.client.cacheConnection connection
        exchanges := system.exchanges.set index after } where
  nodup := (exclusive.release found released).nodup
  below := (exclusive.release found released).below
  cachedBelow other cached := by
    have same : connection = other := Option.some.inj cached
    exact same ▸ exclusive.below before (List.mem_of_getElem? found) _ held
  cachedReused other cached exchange member holds := by
    have same : connection = other := Option.some.inj cached
    rcases Roster.mem_set_cases member with rfl | ⟨position, distinct, located⟩
    · simp [released] at holds
    · exact absurd (same ▸ holds)
        (Roster.select_ne_of_nodup exclusive.nodup distinct.symm found located held)

theorem complete (exclusive : system.Exclusive) {index : ℕ} {before after : Exchange}
    {client : Client} (found : system.exchanges[index]? = some before)
    (turn : Turn system.client before.phase client after.phase) :
    Exclusive { client := client, exchanges := system.exchanges.set index after } := by
  generalize beforeEq : before.phase = phase at turn
  generalize afterEq : after.phase = next at turn
  cases turn with
  | finish settled =>
      exact (exclusive.release found (by rw [afterEq]; rfl)).settle settled
  | resolve settled =>
      exact (exclusive.release found (by rw [afterEq]; rfl)).settle settled
  | connect tls =>
      exact exclusive.make found (by rw [beforeEq]; rfl) (by rw [afterEq]; rfl)
  | handshake stream =>
      exact exclusive.hold found (by rw [beforeEq, afterEq]; rfl)
        (by simp [beforeEq, Phase.reusing])
  | send connection =>
      exact exclusive.hold found (by rw [beforeEq, afterEq]; rfl)
        (by simp [beforeEq, Phase.reusing])
  | sendTls connection =>
      exact exclusive.hold found (by rw [beforeEq, afterEq]; rfl)
        (by simp [beforeEq, Phase.reusing])
  | await connection reused =>
      exact exclusive.hold found (by rw [beforeEq, afterEq]; rfl)
        (by simp [beforeEq, afterEq, Phase.reusing])
  | keep connection =>
      exact exclusive.keep found (by rw [beforeEq]; rfl) (by rw [afterEq]; rfl)

/-- A new request that holds no stream. -/
theorem openIdle (exclusive : system.Exclusive) {added : Exchange}
    (nothing : added.phase.stream? = none) :
    Exclusive { system with exchanges := system.exchanges ++ [added] } where
  nodup := by simpa [List.filterMap_append, nothing] using exclusive.nodup
  below exchange member stream holds := by
    rcases List.mem_append.mp member with old | new
    · exact exclusive.below exchange old stream holds
    · rw [List.mem_singleton.mp new, nothing] at holds
      cases holds
  cachedBelow := exclusive.cachedBelow
  cachedReused connection cached exchange member holds := by
    rcases List.mem_append.mp member with old | new
    · exact exclusive.cachedReused connection cached exchange old holds
    · rw [List.mem_singleton.mp new, nothing] at holds
      cases holds

/-- The cached connection is nobody's when no request is using it: requests that
still connect hold streams of their own. -/
theorem cached_unheld (exclusive : system.Exclusive) {connection : Connection}
    (cached : system.client.cached = some connection)
    (unused : ∀ exchange ∈ system.exchanges, exchange.phase.uses connection.stream = false) :
    ∀ exchange ∈ system.exchanges, exchange.phase.stream? ≠ some connection.stream := by
  intro exchange member holds
  have reusing := exclusive.cachedReused connection cached exchange member holds
  have inUse := unused exchange member
  cases phaseEq : exchange.phase <;> simp_all [Phase.reusing, Phase.stream?, Phase.uses]

theorem openReuse (exclusive : system.Exclusive) {connection : Connection} {added : Exchange}
    (cached : system.client.cached = some connection)
    (unheld : ∀ exchange ∈ system.exchanges, exchange.phase.stream? ≠ some connection.stream)
    (writes : added.phase = .writing connection true) :
    Exclusive { system with exchanges := system.exchanges ++ [added] } where
  nodup := by
    simp only [List.filterMap_append, List.filterMap_cons, writes, Phase.stream?,
      List.filterMap_nil]
    rw [List.nodup_append_comm, List.singleton_append, List.nodup_cons]
    refine ⟨?_, exclusive.nodup⟩
    intro member
    obtain ⟨exchange, old, holds⟩ := List.mem_filterMap.mp member
    exact unheld exchange old holds
  below exchange member stream holds := by
    rcases List.mem_append.mp member with old | new
    · exact exclusive.below exchange old stream holds
    · rw [List.mem_singleton.mp new, writes] at holds
      exact Option.some.inj holds ▸ exclusive.cachedBelow connection cached
  cachedBelow := exclusive.cachedBelow
  cachedReused other otherCached exchange member holds := by
    rcases List.mem_append.mp member with old | new
    · exact exclusive.cachedReused other otherCached exchange old holds
    · rw [List.mem_singleton.mp new, writes]
      rfl

theorem step (exclusive : system.Exclusive) {action : Action} {next : System}
    (unshared : system.Unshared action) (taken : system.step isVerb action = some next) :
    next.Exclusive := by
  cases action with
  | request request peek startTime =>
      simp only [System.step, Option.some.injEq] at taken
      subst taken
      have opening := asyncRequest_opening isVerb system.client request peek startTime
      generalize asyncRequest isVerb system.client request peek startTime = result at opening
      obtain ⟨after, added⟩ := result
      dsimp only at opening ⊢
      generalize phaseEq : added.phase = phase at opening
      cases opening with
      | finish settled => exact (exclusive.openIdle (by rw [phaseEq]; rfl)).settle settled
      | resolve settled => exact (exclusive.openIdle (by rw [phaseEq]; rfl)).settle settled
      | reuse connection reusable alive =>
          have cached := Client.cached_of_reusable reusable
          have unheld := exclusive.cached_unheld cached (unshared connection reusable alive)
          exact exclusive.openReuse cached unheld phaseEq
  | complete index completion =>
      simp only [System.step, Option.bind_eq_some_iff, Option.map_eq_some_iff] at taken
      obtain ⟨exchange, found, result, completed, rfl⟩ := taken
      exact exclusive.complete found (complete_turn completed)
  | setKeepAlive keepAlive =>
      simp only [System.step, Option.some.injEq] at taken
      subst taken
      refine exclusive.settle ⟨rfl, ?_⟩
      cases keepAlive with
      | false => exact .inr rfl
      | true => exact .inl rfl
  | setMaxBodyBytes bytes =>
      simp only [System.step, Option.some.injEq] at taken
      subst taken
      exact exclusive.settle ⟨rfl, .inl rfl⟩

end Exclusive

/-- When no call is made while the cached connection it would reuse is in use,
every connection carries at most one request between the start of its write and
the end of its read. -/
theorem reachable_one_request_each (isVerb : String → Bool) (keepAlive : Bool)
    {system : System}
    (reachable : Reaches (System.step isVerb) Unshared (.new keepAlive) system)
    {first second : ℕ} {exchange other : Exchange} (distinct : first ≠ second)
    (firstFound : system.exchanges[first]? = some exchange)
    (secondFound : system.exchanges[second]? = some other) (stream : ℕ) :
    ¬(exchange.phase.uses stream = true ∧ other.phase.uses stream = true) := by
  have exclusive : system.Exclusive := reachable.invariant Exclusive (.new keepAlive)
    fun _ _ _ exclusive unshared taken => exclusive.step unshared taken
  rintro ⟨exchangeUses, otherUses⟩
  exact Roster.select_ne_of_nodup exclusive.nodup distinct firstFound secondFound
    (Phase.stream?_of_uses exchangeUses) (Phase.stream?_of_uses otherUses)

/-- A second request reuses the connection of the first, a third one, to another
host, is under way at the same time on a connection of its own. -/
theorem reachable_one_request_each_two_hosts :
    ∃ system : System,
      Reaches (System.step (· = "GET")) Unshared (.new true) system ∧
      (system.exchanges.map Exchange.phase).map (Phase.uses 0) = [false, true, false] ∧
      (system.exchanges.map Exchange.phase).map (Phase.uses 1) = [false, false, true] ∧
      ∀ exchange other, system.exchanges[1]? = some exchange →
        system.exchanges[2]? = some other → ∀ stream,
          ¬(exchange.phase.uses stream = true ∧ other.phase.uses stream = true) := by
  have evaluated :
      (guardedRun (System.step (· = "GET")) Unshared (.new true)
        (List.flatten
          [[.request (getRoot "a") .wouldBlock 0], freshExchange 0,
            [.request (getRoot "a") .wouldBlock 0, .complete 1 succeeds],
            [.request (getRoot "b") .wouldBlock 0, .complete 2 succeeds,
              .complete 2 succeeds]])).map
        (fun system => ((system.exchanges.map Exchange.phase).map (Phase.uses 0),
          (system.exchanges.map Exchange.phase).map (Phase.uses 1))) =
      some ([false, true, false], [false, false, true]) := by
    decide +kernel
  obtain ⟨system, executes, uses⟩ := Option.map_eq_some_iff.mp evaluated
  obtain ⟨usesFirst, usesSecond⟩ := Prod.mk.inj uses
  have reaches := reaches_of_guardedRun executes
  refine ⟨system, reaches, usesFirst, usesSecond, ?_⟩
  intro exchange other exchangeFound otherFound stream
  exact reachable_one_request_each _ true reaches (by decide) exchangeFound otherFound stream

/-- The worker's loop calls `async_request` before the previous request is
answered: the first request leaves its connection in the cache, the second and
the third are both written on it. -/
theorem one_connection_two_requests :
    ∃ system : System,
      Reaches (System.step (· = "GET")) Unrestricted (.new true) system ∧
      (system.exchanges.map Exchange.phase).map (Phase.uses 0) = [false, true, true] := by
  have evaluated :
      (run (System.step (· = "GET")) (.new true)
        (List.flatten
          [[.request (getRoot "a") .wouldBlock 0], freshExchange 0,
            [.request (getRoot "a") .wouldBlock 0],
            [.request (getRoot "a") .wouldBlock 0]])).map
        (fun system => (system.exchanges.map Exchange.phase).map (Phase.uses 0)) =
      some [false, true, true] := by
    decide +kernel
  obtain ⟨system, executes, uses⟩ := Option.map_eq_some_iff.mp evaluated
  exact ⟨system, reaches_of_run executes, uses⟩

end System

end Cppload.Http11
