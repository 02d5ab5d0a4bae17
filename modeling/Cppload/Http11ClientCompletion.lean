import Cppload.Http11Client

/-!
# Every request is answered once and never resent blindly

The log of a request can only have a few shapes, one for each operation that
may be outstanding.  Every callback leads from a shape to a shape, so the
shapes hold for every request of a client, whatever order the operations of
all its requests complete in and whatever their outcomes are.  The exception are
requests that Beast does not let build: the call throws and nothing else happens.
-/

namespace Cppload.Http11

open Transition

/-- The connection of a started write and whether it was the cached one. -/
def Event.write? : Event → Option (Connection × Bool)
  | .wrote connection reused => some (connection, reused)
  | _ => none

/-- The event is a call of the handler. -/
def Event.isHandled : Event → Bool
  | .handled _ => true
  | _ => false

/-- The writes started for a request, in order. -/
def writes (log : List Event) : List (Connection × Bool) :=
  log.filterMap Event.write?

/-- How often the handler was called. -/
def handlerCalls (log : List Event) : ℕ :=
  log.countP Event.isHandled

/-- Beast knows the method, and throws while the request is built. -/
def Request.raises (isVerb : String → Bool) (request : Request) : Bool :=
  isVerb request.method && request.throws

theorem buildRequest_of_raises {isVerb : String → Bool} {request : Request}
    (raises : request.raises isVerb = true) : buildRequest isVerb request = .error .threw := by
  obtain ⟨known, throws⟩ := Bool.and_eq_true_iff.mp raises
  simp [buildRequest, known, throws]

theorem buildRequest_ne_threw {isVerb : String → Bool} {request : Request}
    (accepted : request.raises isVerb = false) :
    buildRequest isVerb request ≠ .error .threw := by
  unfold Request.raises at accepted
  unfold buildRequest
  split
  · rename_i known
    simp_all
  · simp

/-- Before a fresh connection is used, either nothing was written or an
idempotent request failed on the cached connection. -/
inductive Prelude (request : Request) : List Event → Prop
  | untouched : Prelude request []
  | retry (connection : Connection)
      (idempotent : methodIsIdempotent request.method = true) :
      Prelude request [.wrote connection true, .abandoned connection]

/-- The log of a request that is using a connection. -/
inductive InUse (request : Request) : Connection → Bool → List Event → Prop
  | cached (connection : Connection) :
      InUse request connection true [.wrote connection true]
  | fresh {log : List Event} (connection : Connection)
      (before : Prelude request log)
      (newer : ∀ write ∈ writes log, write.1.stream < connection.stream) :
      InUse request connection false (log ++ [.wrote connection false])

/-- The shapes of the log of a request, by its outstanding operation. -/
def Shape (exchange : Exchange) : Prop :=
  match exchange.phase with
  | .resolving => Prelude exchange.request exchange.log
  | .connecting stream _ | .handshaking stream =>
      Prelude exchange.request exchange.log ∧
        ∀ write ∈ writes exchange.log, write.1.stream < stream
  | .writing connection reused | .reading connection reused =>
      InUse exchange.request connection reused exchange.log
  | .idle =>
      ∃ log response, exchange.log = log ++ [.handled response] ∧
        (Prelude exchange.request log ∨
          ∃ connection reused, InUse exchange.request connection reused log)

/-- Every write of the request went to a stream the client has made. -/
def Made (client : Client) (exchange : Exchange) : Prop :=
  ∀ write ∈ writes exchange.log, write.1.stream < client.nextStream

/-- The cached connection and the connections under construction are streams
the client has made. -/
def StreamsMade (client : Client) (exchange : Exchange) : Prop :=
  match exchange.phase with
  | .connecting stream _ | .handshaking stream => stream < client.nextStream
  | _ => True

/-- The course of a request: its exception, or one of the shapes. -/
def Course (isVerb : String → Bool) (exchange : Exchange) : Prop :=
  if exchange.request.raises isVerb then
    exchange.phase = .idle ∧ exchange.log = [.threw]
  else Shape exchange

@[simp]
theorem writes_nil : writes [] = [] := rfl

@[simp]
theorem writes_append (first second : List Event) :
    writes (first ++ second) = writes first ++ writes second :=
  List.filterMap_append

@[simp]
theorem writes_wrote (connection : Connection) (reused : Bool) (log : List Event) :
    writes (.wrote connection reused :: log) = (connection, reused) :: writes log := rfl

@[simp]
theorem writes_abandoned (connection : Connection) (log : List Event) :
    writes (.abandoned connection :: log) = writes log := rfl

@[simp]
theorem writes_handled (response : Response) (log : List Event) :
    writes (.handled response :: log) = writes log := rfl

@[simp]
theorem writes_threw (log : List Event) : writes (.threw :: log) = writes log := rfl

@[simp]
theorem handlerCalls_nil : handlerCalls [] = 0 := rfl

@[simp]
theorem handlerCalls_append (first second : List Event) :
    handlerCalls (first ++ second) = handlerCalls first + handlerCalls second :=
  List.countP_append

@[simp]
theorem handlerCalls_wrote (connection : Connection) (reused : Bool) (log : List Event) :
    handlerCalls (.wrote connection reused :: log) = handlerCalls log := by
  simp [handlerCalls, Event.isHandled]

@[simp]
theorem handlerCalls_abandoned (connection : Connection) (log : List Event) :
    handlerCalls (.abandoned connection :: log) = handlerCalls log := by
  simp [handlerCalls, Event.isHandled]

@[simp]
theorem handlerCalls_handled (response : Response) (log : List Event) :
    handlerCalls (.handled response :: log) = handlerCalls log + 1 :=
  List.countP_cons_of_pos rfl

@[simp]
theorem handlerCalls_threw (log : List Event) :
    handlerCalls (.threw :: log) = handlerCalls log := by
  simp [handlerCalls, Event.isHandled]

/-- What one callback, or the call of `async_request`, leaves behind. -/
structure Kept (isVerb : String → Bool) (before after : Client) (exchange : Exchange) : Prop where
  shape : Shape exchange
  accepted : exchange.request.raises isVerb = false
  tlsContext : after.tlsContext = before.tlsContext
  made : Made after exchange
  streamsMade : StreamsMade after exchange
  cachedMade : ∀ connection, after.cached = some connection →
    connection.stream < after.nextStream
  grows : before.nextStream ≤ after.nextStream

variable {isVerb : String → Bool} {client : Client} {exchange : Exchange}

/-- All that a callback relies on. -/
structure Ready (isVerb : String → Bool) (client : Client) (exchange : Exchange) : Prop where
  accepted : exchange.request.raises isVerb = false
  made : Made client exchange
  cachedMade : ∀ connection, client.cached = some connection →
    connection.stream < client.nextStream

namespace Ready

theorem dropCached (ready : Ready isVerb client exchange) (connection : Connection) :
    Ready isVerb (client.dropCached connection) exchange := by
  unfold Client.dropCached
  split
  · exact ⟨ready.accepted, ready.made, by simp⟩
  · exact ready

theorem abandon (ready : Ready isVerb client exchange) (connection : Connection) :
    Ready isVerb client (exchange.abandon connection) :=
  ⟨ready.accepted, by simpa [Made, Exchange.abandon] using ready.made, ready.cachedMade⟩

/-- Calling the handler ends the request. -/
theorem handle (ready : Ready isVerb client exchange) (response : Response)
    (used : Prelude exchange.request exchange.log ∨
      ∃ connection reused, InUse exchange.request connection reused exchange.log) :
    Kept isVerb client client (exchange.handle response) where
  shape := ⟨exchange.log, response, rfl, used⟩
  accepted := ready.accepted
  tlsContext := rfl
  made := by simpa [Made, Exchange.handle] using ready.made
  streamsMade := trivial
  cachedMade := ready.cachedMade
  grows := le_rfl

/-- Without a message the handler is told, if there is no exception. -/
theorem fail (ready : Ready isVerb client exchange) {failure : BuildFailure}
    (built : buildRequest isVerb exchange.request = .error failure)
    (before : Prelude exchange.request exchange.log) :
    Kept isVerb client client (exchange.fail failure) := by
  cases failure with
  | refused ec => exact ready.handle _ (.inl before)
  | threw => exact absurd built (buildRequest_ne_threw ready.accepted)

theorem requestFresh (ready : Ready isVerb client exchange)
    (before : Prelude exchange.request exchange.log) :
    Kept isVerb client (requestFresh isVerb client exchange).1
      (requestFresh isVerb client exchange).2 := by
  unfold Http11.requestFresh
  split
  · rename_i built
    exact ready.fail built before
  · exact ⟨before, ready.accepted, rfl, ready.made, trivial, ready.cachedMade, le_rfl⟩

end Ready

@[simp]
theorem dropCached_nextStream (client : Client) (connection : Connection) :
    (client.dropCached connection).nextStream = client.nextStream := by
  unfold Client.dropCached
  split <;> rfl

@[simp]
theorem dropCached_tlsContext (client : Client) (connection : Connection) :
    (client.dropCached connection).tlsContext = client.tlsContext := by
  unfold Client.dropCached
  split <;> rfl

/-- What happens after the cached connection was dropped counts from before. -/
theorem Kept.of_dropCached {after : Client} {connection : Connection}
    (kept : Kept isVerb (client.dropCached connection) after exchange) :
    Kept isVerb client after exchange :=
  ⟨kept.shape, kept.accepted, kept.tlsContext.trans (dropCached_tlsContext client connection),
    kept.made, kept.streamsMade, kept.cachedMade,
    (dropCached_nextStream client connection).ge.trans kept.grows⟩

/-- Falling back to a fresh connection after the attempt on the cached one. -/
theorem Ready.retry (ready : Ready isVerb client exchange)
    {connection : Connection} (attempt : exchange.log = [.wrote connection true])
    (idempotent : methodIsIdempotent exchange.request.method = true) :
    Kept isVerb client
      (Http11.requestFresh isVerb (client.dropCached connection)
        (exchange.abandon connection)).1
      (Http11.requestFresh isVerb (client.dropCached connection)
        (exchange.abandon connection)).2 := by
  have before : Prelude (exchange.abandon connection).request
      (exchange.abandon connection).log := by
    simp only [Exchange.abandon, attempt]
    exact .retry connection idempotent
  exact .of_dropCached
    (((ready.dropCached connection).abandon connection).requestFresh before)

/-- The handler is called after the cached connection was dropped. -/
theorem Ready.handleDropped (ready : Ready isVerb client exchange) (connection : Connection)
    (response : Response)
    (used : Prelude exchange.request exchange.log ∨
      ∃ connection reused, InUse exchange.request connection reused exchange.log) :
    Kept isVerb client (client.dropCached connection) (exchange.handle response) :=
  .of_dropCached ((ready.dropCached connection).handle response used)

theorem onResolve_kept (ready : Ready isVerb client exchange) (completion : Completion)
    (before : Prelude exchange.request exchange.log) :
    Kept isVerb client (onResolve client exchange completion).1
      (onResolve client exchange completion).2 := by
  have connected (tls : Bool) :
      Kept isVerb client (connect tls client exchange).1 (connect tls client exchange).2 :=
    ⟨⟨before, ready.made⟩, ready.accepted, rfl, fun write member => (ready.made write member).trans
        (Nat.lt_succ_self _), Nat.lt_succ_self _,
      fun connection cached => (ready.cachedMade connection cached).trans
        (Nat.lt_succ_self _), Nat.le_succ _⟩
  unfold onResolve
  split
  · split
    · exact connected true
    · exact connected false
  · exact ready.handle _ (.inl before)
  · exact ready.handle _ (.inl before)

/-- A write on a fresh connection. -/
theorem sendOn_kept (ready : Ready isVerb client exchange) (tls : Bool) {stream : ℕ}
    (before : Prelude exchange.request exchange.log)
    (newer : ∀ write ∈ writes exchange.log, write.1.stream < stream)
    (streamMade : stream < client.nextStream) :
    Kept isVerb client (sendOn tls client exchange stream).1
      (sendOn tls client exchange stream).2 where
  shape := .fresh _ before newer
  accepted := ready.accepted
  tlsContext := rfl
  made := by
    intro write member
    simp only [sendOn, Exchange.write, writes_append, List.mem_append, writes_wrote,
      writes_nil, List.mem_singleton] at member
    rcases member with old | rfl
    · exact ready.made write old
    · exact streamMade
  streamsMade := trivial
  cachedMade := ready.cachedMade
  grows := le_rfl

theorem onConnectTcp_kept (ready : Ready isVerb client exchange) (completion : Completion)
    {stream : ℕ} (before : Prelude exchange.request exchange.log)
    (newer : ∀ write ∈ writes exchange.log, write.1.stream < stream)
    (streamMade : stream < client.nextStream) :
    Kept isVerb client (onConnectTcp client exchange stream completion).1
      (onConnectTcp client exchange stream completion).2 := by
  unfold onConnectTcp
  split
  · exact sendOn_kept ready false before newer streamMade
  · exact ready.handle _ (.inl before)
  · exact ready.handle _ (.inl before)

theorem onConnectTls_kept (ready : Ready isVerb client exchange) (completion : Completion)
    {stream : ℕ} (before : Prelude exchange.request exchange.log)
    (newer : ∀ write ∈ writes exchange.log, write.1.stream < stream)
    (streamMade : stream < client.nextStream) :
    Kept isVerb client (onConnectTls client exchange stream completion).1
      (onConnectTls client exchange stream completion).2 := by
  unfold onConnectTls
  split
  · split
    · exact ready.handle _ (.inl before)
    · exact ⟨⟨before, newer⟩, ready.accepted, rfl, ready.made, streamMade, ready.cachedMade, le_rfl⟩
  · exact ready.handle _ (.inl before)
  · exact ready.handle _ (.inl before)

theorem onHandshake_kept (ready : Ready isVerb client exchange) (completion : Completion)
    {stream : ℕ} (before : Prelude exchange.request exchange.log)
    (newer : ∀ write ∈ writes exchange.log, write.1.stream < stream)
    (streamMade : stream < client.nextStream) :
    Kept isVerb client (onHandshake client exchange stream completion).1
      (onHandshake client exchange stream completion).2 := by
  unfold onHandshake
  split
  · exact sendOn_kept ready true before newer streamMade
  · exact ready.handle _ (.inl before)

theorem onWriteCached_kept (ready : Ready isVerb client exchange) (completion : Completion)
    {connection : Connection}
    (attempt : exchange.log = [.wrote connection true]) :
    Kept isVerb client (onWriteCached isVerb client exchange connection completion).1
      (onWriteCached isVerb client exchange connection completion).2 := by
  have inUse : InUse exchange.request connection true exchange.log :=
    attempt ▸ .cached connection
  unfold onWriteCached
  split
  · exact ⟨inUse, ready.accepted, rfl, ready.made, trivial, ready.cachedMade, le_rfl⟩
  · dsimp only
    split
    · rename_i idempotent
      exact ready.retry attempt idempotent
    · exact ready.handleDropped connection _ (.inr ⟨_, _, inUse⟩)

theorem onReadCached_kept (ready : Ready isVerb client exchange) (completion : Completion)
    {connection : Connection}
    (attempt : exchange.log = [.wrote connection true]) :
    Kept isVerb client (onReadCached isVerb client exchange connection completion).1
      (onReadCached isVerb client exchange connection completion).2 := by
  have inUse : InUse exchange.request connection true exchange.log :=
    attempt ▸ .cached connection
  unfold onReadCached
  dsimp only
  split
  · exact ready.handle _ (.inr ⟨_, _, inUse⟩)
  · split
    · rename_i decided
      simp only [Bool.and_eq_true] at decided
      exact ready.retry attempt decided.2
    · exact ready.handleDropped connection _ (.inr ⟨_, _, inUse⟩)

theorem onWriteFresh_kept (ready : Ready isVerb client exchange) (completion : Completion)
    {connection : Connection}
    (inUse : InUse exchange.request connection false exchange.log) :
    Kept isVerb client (onWriteFresh client exchange connection completion).1
      (onWriteFresh client exchange connection completion).2 := by
  unfold onWriteFresh
  split
  · exact ⟨inUse, ready.accepted, rfl, ready.made, trivial, ready.cachedMade, le_rfl⟩
  · exact ready.handle _ (.inr ⟨_, _, inUse⟩)

theorem InUse.mem_writes {request : Request} {connection : Connection} {reused : Bool}
    {log : List Event} (inUse : InUse request connection reused log) :
    (connection, reused) ∈ writes log := by
  cases inUse with
  | cached => simp
  | fresh => simp

theorem onReadFresh_kept (ready : Ready isVerb client exchange) (completion : Completion)
    {connection : Connection}
    (inUse : InUse exchange.request connection false exchange.log) :
    Kept isVerb client (onReadFresh client exchange connection completion).1
      (onReadFresh client exchange connection completion).2 := by
  have kept := ready.handle (populateResponse client completion.message
    completion.result exchange.startTime completion.now) (.inr ⟨_, _, inUse⟩)
  unfold onReadFresh
  dsimp only
  split
  · refine ⟨kept.shape, kept.accepted, rfl, kept.made, trivial, ?_, le_rfl⟩
    intro other cached
    simp only [Client.cacheConnection, Option.some.injEq] at cached
    subst cached
    exact ready.made _ inUse.mem_writes
  · exact kept

/-- Every callback keeps the shape of its request. -/
theorem complete_kept {completion : Completion}
    {result : Client × Exchange} (ready : Ready isVerb client exchange)
    (shape : Shape exchange) (streamsMade : StreamsMade client exchange)
    (taken : complete isVerb client exchange completion = some result) :
    Kept isVerb client result.1 result.2 := by
  unfold complete at taken
  unfold Shape at shape
  unfold StreamsMade at streamsMade
  cases phaseEq : exchange.phase with
  | resolving =>
      simp only [phaseEq, Option.some.injEq] at taken shape
      exact taken ▸ onResolve_kept ready completion shape
  | connecting stream tls =>
      simp only [phaseEq] at shape streamsMade
      cases tls with
      | false =>
          simp only [phaseEq, Option.some.injEq] at taken
          exact taken ▸ onConnectTcp_kept ready completion shape.1 shape.2 streamsMade
      | true =>
          simp only [phaseEq, Option.some.injEq] at taken
          exact taken ▸ onConnectTls_kept ready completion shape.1 shape.2 streamsMade
  | handshaking stream =>
      simp only [phaseEq, Option.some.injEq] at taken shape streamsMade
      exact taken ▸ onHandshake_kept ready completion shape.1 shape.2 streamsMade
  | writing connection reused =>
      simp only [phaseEq] at shape
      cases reused with
      | false =>
          simp only [phaseEq, Option.some.injEq] at taken
          exact taken ▸ onWriteFresh_kept ready completion shape
      | true =>
          simp only [phaseEq, Option.some.injEq] at taken
          generalize logEq : exchange.log = log at shape
          cases shape
          exact taken ▸ onWriteCached_kept ready completion logEq
  | reading connection reused =>
      simp only [phaseEq] at shape
      cases reused with
      | false =>
          simp only [phaseEq, Option.some.injEq] at taken
          exact taken ▸ onReadFresh_kept ready completion shape
      | true =>
          simp only [phaseEq, Option.some.injEq] at taken
          generalize logEq : exchange.log = log at shape
          cases shape
          exact taken ▸ onReadCached_kept ready completion logEq
  | idle => simp [phaseEq] at taken

/-- A call on a cached connection writes on it, or starts afresh. -/
theorem requestOnCached_kept (ready : Ready isVerb client exchange) (peek : Peek)
    {connection : Connection} (unused : exchange.log = [])
    (cached : client.cached = some connection) :
    Kept isVerb client (requestOnCached isVerb client exchange connection peek).1
      (requestOnCached isVerb client exchange connection peek).2 := by
  have before : Prelude exchange.request exchange.log := unused ▸ .untouched
  have started : Kept isVerb client client (exchange.write connection true) := by
    refine ⟨?_, ready.accepted, rfl, ?_, trivial, ready.cachedMade, le_rfl⟩
    · simp only [Shape, Exchange.write, unused, List.nil_append]
      exact .cached connection
    · simpa [Made, Exchange.write, unused] using ready.cachedMade _ cached
  unfold requestOnCached
  split
  · rename_i built
    exact ready.fail built before
  · split
    · exact .of_dropCached ((ready.dropCached connection).requestFresh before)
    · split
      · exact started
      · exact started

theorem asyncRequest_kept {request : Request}
    (accepted : request.raises isVerb = false) (peek : Peek) (startTime : ℤ)
    (cachedMade : ∀ connection, client.cached = some connection →
      connection.stream < client.nextStream) :
    Kept isVerb client (asyncRequest isVerb client request peek startTime).1
      (asyncRequest isVerb client request peek startTime).2 := by
  have ready : Ready isVerb client ⟨request, startTime, .idle, []⟩ :=
    ⟨accepted, by simp [Made], cachedMade⟩
  unfold asyncRequest
  dsimp only
  split
  · exact ready.handle _ (.inl .untouched)
  · split
    · rename_i connection reusable
      exact requestOnCached_kept ready peek rfl
        (Option.filter_eq_some_iff.1 reusable).1
    · exact ready.requestFresh .untouched

/-- A call that throws leaves the client as it was. -/
theorem asyncRequest_of_raises {request : Request}
    (context : client.tlsContext = true) (raises : request.raises isVerb = true) (peek : Peek)
    (startTime : ℤ) :
    asyncRequest isVerb client request peek startTime =
      (client, ⟨request, startTime, .idle, [.threw]⟩) := by
  have built := buildRequest_of_raises raises
  unfold asyncRequest
  simp only [context, Bool.not_true, Bool.and_false, Bool.false_eq_true, if_false]
  split
  · simp [requestOnCached, built, Exchange.fail]
  · simp [requestFresh, built, Exchange.fail]

/-- Every request of the client takes one of the courses. -/
structure System.Sound (isVerb : String → Bool) (system : System) : Prop where
  tlsContext : system.client.tlsContext = true
  course : ∀ exchange ∈ system.exchanges, Course isVerb exchange
  made : ∀ exchange ∈ system.exchanges, Made system.client exchange
  streamsMade : ∀ exchange ∈ system.exchanges, StreamsMade system.client exchange
  cachedMade : ∀ connection, system.client.cached = some connection →
    connection.stream < system.client.nextStream

theorem StreamsMade.mono {after : Client} (made : StreamsMade client exchange)
    (grows : client.nextStream ≤ after.nextStream) : StreamsMade after exchange := by
  unfold StreamsMade at made ⊢
  cases phaseEq : exchange.phase <;> simp only [phaseEq] at made ⊢ <;>
    exact made.trans_le grows

namespace System.Sound

variable {system : System}

theorem new (isVerb : String → Bool) (keepAlive : Bool) :
    (System.new keepAlive).Sound isVerb where
  tlsContext := rfl
  course := by simp [System.new]
  made := by simp [System.new]
  streamsMade := by simp [System.new]
  cachedMade := by simp [System.new, Client.new]

/-- One request starts or proceeds, the others stay as they are. -/
theorem proceed (sound : system.Sound isVerb) {after : Client} {exchange : Exchange}
    (kept : Kept isVerb system.client after exchange) {exchanges : List Exchange}
    (others : ∀ other ∈ exchanges, other ∈ system.exchanges ∨ other = exchange) :
    System.Sound isVerb { client := after, exchanges := exchanges } where
  tlsContext := kept.tlsContext.trans sound.tlsContext
  course other member := by
    rcases others other member with old | rfl
    · exact sound.course other old
    · simpa [Course, kept.accepted] using kept.shape
  made other member := by
    rcases others other member with old | rfl
    · exact fun write written => (sound.made other old write written).trans_le kept.grows
    · exact kept.made
  streamsMade other member := by
    rcases others other member with old | rfl
    · exact (sound.streamsMade other old).mono kept.grows
    · exact kept.streamsMade
  cachedMade := kept.cachedMade

/-- A request that throws is over at once. -/
theorem raise (sound : system.Sound isVerb) {request : Request} (startTime : ℤ)
    (raises : request.raises isVerb = true) :
    System.Sound isVerb { system with
      exchanges := system.exchanges ++ [⟨request, startTime, .idle, [.threw]⟩] } where
  tlsContext := sound.tlsContext
  course other member := by
    rcases List.mem_append.mp member with old | new
    · exact sound.course other old
    · rw [List.mem_singleton.mp new]
      simp [Course, raises]
  made other member := by
    rcases List.mem_append.mp member with old | new
    · exact sound.made other old
    · rw [List.mem_singleton.mp new]
      simp [Made]
  streamsMade other member := by
    rcases List.mem_append.mp member with old | new
    · exact sound.streamsMade other old
    · rw [List.mem_singleton.mp new]
      trivial
  cachedMade := sound.cachedMade

theorem step {action : Action} {next : System}
    (sound : system.Sound isVerb) (taken : system.step isVerb action = some next) :
    next.Sound isVerb := by
  cases action with
  | request request peek startTime =>
      simp only [System.step, Option.some.injEq] at taken
      subst taken
      cases raises : request.raises isVerb with
      | true =>
          rw [asyncRequest_of_raises sound.tlsContext raises]
          exact sound.raise startTime raises
      | false =>
          refine sound.proceed (asyncRequest_kept raises peek startTime sound.cachedMade) ?_
          intro other member
          simpa only [List.mem_append, List.mem_singleton] using member
  | complete index completion =>
      simp only [System.step, Option.bind_eq_some_iff, Option.map_eq_some_iff] at taken
      obtain ⟨exchange, found, result, completed, rfl⟩ := taken
      have member := List.mem_of_getElem? found
      have course := sound.course exchange member
      unfold Course at course
      split at course
      · simp [complete, course.1] at completed
      · rename_i accepted
        refine sound.proceed
          (complete_kept
            ⟨Bool.eq_false_iff.mpr accepted, sound.made exchange member, sound.cachedMade⟩
            course (sound.streamsMade exchange member) completed) ?_
        intro other
        exact List.mem_or_eq_of_mem_set
  | setKeepAlive keepAlive =>
      simp only [System.step, Option.some.injEq] at taken
      subst taken
      refine ⟨sound.tlsContext, sound.course, sound.made, sound.streamsMade, ?_⟩
      intro connection cached
      cases keepAlive with
      | false => simp at cached
      | true => exact sound.cachedMade connection (by simpa using cached)
  | setMaxBodyBytes bytes =>
      simp only [System.step, Option.some.injEq] at taken
      subst taken
      exact ⟨sound.tlsContext, sound.course, sound.made, sound.streamsMade, sound.cachedMade⟩

end System.Sound

/-- Nothing was written, or the request went out on the cached connection, or on
a fresh one, or on both in this order because the cached one failed. -/
inductive Sent (request : Request) : List Event → Prop
  | nothing : Sent request []
  | cached (connection : Connection) : Sent request [.wrote connection true]
  | failed (connection : Connection)
      (idempotent : methodIsIdempotent request.method = true) :
      Sent request [.wrote connection true, .abandoned connection]
  | fresh (connection : Connection) : Sent request [.wrote connection false]
  | resent (first second : Connection)
      (idempotent : methodIsIdempotent request.method = true)
      (newer : first.stream < second.stream) :
      Sent request [.wrote first true, .abandoned first, .wrote second false]

theorem Prelude.sent {request : Request} {log : List Event}
    (before : Prelude request log) : Sent request log := by
  cases before with
  | untouched => exact .nothing
  | retry connection idempotent => exact .failed connection idempotent

theorem InUse.sent {request : Request} {connection : Connection} {reused : Bool}
    {log : List Event} (inUse : InUse request connection reused log) :
    Sent request log := by
  cases inUse with
  | cached => exact .cached connection
  | fresh _ before newer =>
      cases before with
      | untouched => exact .fresh connection
      | retry first idempotent =>
          exact .resent first connection idempotent (newer (first, true) (by simp))

theorem Sent.handlerCalls_eq {request : Request} {log : List Event}
    (sent : Sent request log) : handlerCalls log = 0 := by
  cases sent <;> simp

/-- The log of every shape is what was sent, followed by the call of the handler
when no operation is outstanding. -/
theorem Shape.sent (shape : Shape exchange) :
    ∃ log, Sent exchange.request log ∧ log <+: exchange.log ∧
      writes exchange.log = writes log ∧
      handlerCalls exchange.log = if exchange.phase = .idle then 1 else 0 := by
  have unanswered {log : List Event} (active : exchange.phase ≠ .idle)
      (sent : Sent exchange.request log) (logEq : exchange.log = log) :
      ∃ log, Sent exchange.request log ∧ log <+: exchange.log ∧
        writes exchange.log = writes log ∧
        handlerCalls exchange.log = if exchange.phase = .idle then 1 else 0 :=
    ⟨log, sent, logEq ▸ List.prefix_rfl, by rw [logEq],
      by rw [logEq, if_neg active, sent.handlerCalls_eq]⟩
  unfold Shape at shape
  cases phaseEq : exchange.phase <;> simp only [phaseEq] at shape
  case resolving => exact phaseEq ▸ unanswered (by simp [phaseEq]) shape.sent rfl
  case connecting => exact phaseEq ▸ unanswered (by simp [phaseEq]) shape.1.sent rfl
  case handshaking => exact phaseEq ▸ unanswered (by simp [phaseEq]) shape.1.sent rfl
  case writing => exact phaseEq ▸ unanswered (by simp [phaseEq]) shape.sent rfl
  case reading => exact phaseEq ▸ unanswered (by simp [phaseEq]) shape.sent rfl
  case idle =>
    obtain ⟨log, response, logEq, used⟩ := shape
    have sent : Sent exchange.request log := by
      rcases used with before | ⟨connection, reused, inUse⟩
      · exact before.sent
      · exact inUse.sent
    exact ⟨log, sent, logEq ▸ List.prefix_append _ _, by simp [logEq],
      by simp [logEq, sent.handlerCalls_eq]⟩

/-- A request that throws has sent nothing and does not call its handler. -/
theorem Course.sent (course : Course isVerb exchange) :
    ∃ log, Sent exchange.request log ∧ log <+: exchange.log ∧
      writes exchange.log = writes log ∧
      handlerCalls exchange.log =
        if exchange.phase = .idle ∧ exchange.request.raises isVerb = false then 1 else 0 := by
  unfold Course at course
  split at course
  · rename_i raises
    obtain ⟨-, logEq⟩ := course
    exact ⟨[], .nothing, List.nil_prefix, by simp [logEq], by simp [logEq, raises]⟩
  · rename_i accepted
    obtain ⟨log, sent, begins, same, calls⟩ := course.sent
    exact ⟨log, sent, begins, same, by simpa [accepted] using calls⟩

/-- At most two writes; the second one is the fallback of an idempotent method. -/
theorem Sent.writes_spec {request : Request} {log : List Event}
    (sent : Sent request log) :
    (writes log).length ≤ 2 ∧
      (∀ first second, writes log = [first, second] →
        first.2 = true ∧ second.2 = false ∧ first.1.stream ≠ second.1.stream ∧
          log = [.wrote first.1 true, .abandoned first.1, .wrote second.1 false]) ∧
      (methodIsIdempotent request.method = false → (writes log).length ≤ 1) := by
  cases sent with
  | nothing => simp
  | cached connection => simp
  | failed connection idempotent => simp
  | fresh connection => simp
  | resent first second idempotent newer => simp [idempotent, newer.ne]

theorem methodIsIdempotent_eq_false {method : String}
    (other : method ∉ ["GET", "HEAD", "PUT", "DELETE", "OPTIONS", "TRACE"]) :
    methodIsIdempotent method = false := by
  simpa [methodIsIdempotent, and_assoc] using other

/-- No request on a client is answered twice.  When its last operation has completed
it has been answered, exactly if Beast did not throw while it was built.  It is written
a second time only on a fresh connection after an idempotent attempt on the cached
connection failed. -/
theorem System.reachable_answers_once_iff (isVerb : String → Bool) (keepAlive : Bool)
    {system : System}
    (reachable : Reaches (System.step isVerb) Unrestricted (.new keepAlive) system) :
    ∀ exchange ∈ system.exchanges,
      handlerCalls exchange.log ≤ 1 ∧
      (exchange.phase ≠ .idle → handlerCalls exchange.log = 0) ∧
      (exchange.phase = .idle →
        (handlerCalls exchange.log = 1 ↔
          ¬(isVerb exchange.request.method = true ∧ exchange.request.throws = true))) ∧
      (writes exchange.log).length ≤ 2 ∧
      (∀ first second, writes exchange.log = [first, second] →
        first.2 = true ∧ second.2 = false ∧ first.1.stream ≠ second.1.stream ∧
          [.wrote first.1 true, .abandoned first.1, .wrote second.1 false] <+:
            exchange.log) ∧
      (exchange.request.method ∉ ["GET", "HEAD", "PUT", "DELETE", "OPTIONS", "TRACE"] →
        (writes exchange.log).length ≤ 1) := by
  have sound := reachable.invariant (System.Sound isVerb) (.new isVerb keepAlive)
    fun _ _ _ sound _ taken => sound.step taken
  intro exchange member
  obtain ⟨log, sent, begins, same, calls⟩ := (sound.course exchange member).sent
  obtain ⟨two, second, one⟩ := sent.writes_spec
  rw [same, calls]
  refine ⟨?_, fun active => ?_, fun idle => ?_, two, fun first last written => ?_,
    fun other => one (methodIsIdempotent_eq_false other)⟩
  · split <;> decide
  · simp [active]
  · simp [idle, Request.raises]
  · obtain ⟨reused, fresh, newer, logEq⟩ := second first last written
    exact ⟨reused, fresh, newer, logEq ▸ begins⟩

/-- A request is answered on a fresh connection, which is then cached; the next
one fails on it and is answered on a second fresh connection. -/
theorem System.reachable_answers_once_iff_after_retry :
    ∃ system exchange,
      Reaches (System.step (· = "GET")) Unrestricted (.new true) system ∧
      exchange ∈ system.exchanges ∧ (writes exchange.log).map Prod.snd = [true, false] ∧
      exchange.phase = .idle ∧ exchange.request.throws = false ∧
      handlerCalls exchange.log = 1 := by
  let get : Request := ⟨"GET", [47], [], [], "a", 80, false⟩
  let completion (result : IoResult) : Completion := ⟨result, ⟨200, 11, [], []⟩, true, 5000⟩
  have evaluated :
      (((run (System.step (· = "GET")) (.new true)
          [.request get .wouldBlock 0, .complete 0 (completion .success),
            .complete 0 (completion .success), .complete 0 (completion .success),
            .complete 0 (completion .success), .request get .wouldBlock 0,
            .complete 1 (completion .other), .complete 1 (completion .success),
            .complete 1 (completion .success), .complete 1 (completion .success),
            .complete 1 (completion .success)]).bind
        fun system => system.exchanges[1]?.map fun exchange =>
          ((writes exchange.log).map Prod.snd, exchange.phase, exchange.request.throws))) =
      some ([true, false], .idle, false) := by
    decide +kernel
  obtain ⟨system, executes, found⟩ := Option.bind_eq_some_iff.mp evaluated
  obtain ⟨exchange, at1, fields⟩ := Option.map_eq_some_iff.mp found
  simp only [Prod.mk.injEq] at fields
  obtain ⟨written, idle, accepted⟩ := fields
  have reaches := reaches_of_run executes
  have member := List.mem_of_getElem? at1
  obtain ⟨-, -, answered, -⟩ :=
    System.reachable_answers_once_iff _ true reaches exchange member
  exact ⟨system, exchange, reaches, member, written, idle, accepted,
    (answered idle).mpr (by simp [accepted])⟩

/-- A TRACE request with a body: `prepare_payload` throws out of `async_request`, and
nothing is outstanding. -/
theorem System.trace_with_body_unanswered :
    ∃ system exchange,
      Reaches (System.step (· = "TRACE")) Unrestricted (.new true) system ∧
      exchange ∈ system.exchanges ∧ exchange.phase = .idle ∧
      handlerCalls exchange.log = 0 := by
  have evaluated :
      ((run (System.step (· = "TRACE")) (.new true)
          [.request ⟨"TRACE", [47], [120], [], "a", 80, false⟩ .wouldBlock 0]).bind
        fun system => system.exchanges[0]?.map fun exchange =>
          (exchange.phase, handlerCalls exchange.log)) = some (.idle, 0) := by
    decide +kernel
  obtain ⟨system, executes, found⟩ := Option.bind_eq_some_iff.mp evaluated
  obtain ⟨exchange, at0, fields⟩ := Option.map_eq_some_iff.mp found
  simp only [Prod.mk.injEq] at fields
  exact ⟨system, exchange, reaches_of_run executes, List.mem_of_getElem? at0, fields⟩

end Cppload.Http11
