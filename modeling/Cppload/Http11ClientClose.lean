import Cppload.Http11ClientConnections

/-!
# Connections that the server has announced to close

After a clean read on a fresh connection the client keeps it for the next
request, without a look at what the response says about the connection.  Only
the peek before the next write can notice that the server has closed it, which
it cannot before the server's FIN has arrived.

The client is observed here together with the last response that each stream
has carried, and every write is recorded with the response before it.
-/

namespace Cppload.Http11

open Transition

/-! ### What a response says about its connection -/

/-- A text without the blanks at both ends. -/
def trimBlanks (text : List Char) : List Char :=
  let blank := fun c => c = ' ' || c = '\t'
  ((text.dropWhile blank).reverse.dropWhile blank).reverse

/-- The options of all `Connection` fields, in lower case. -/
def Message.connectionOptions (message : Message) : List (List Char) :=
  (message.fields.filter fun field =>
      field.1.toList.map Char.toLower = "connection".toList).flatMap fun field =>
    (field.2.toList.splitOn ',').map fun option => (trimBlanks option).map Char.toLower

/-- The server will close the connection after this response. -/
def Message.announcesClose (message : Message) : Bool :=
  message.connectionOptions.contains "close".toList ||
    (message.version < 11 && !message.connectionOptions.contains "keep-alive".toList)

/-- `async_request` fails before any input or output. -/
def Client.refuses (isVerb : String → Bool) (client : Client) (request : Request) : Bool :=
  (request.useTls && !client.tlsContext) || !isVerb request.method || request.throws

/-- The response before, if there was one, has announced the end of the connection. -/
def announced (previous : Option Message) : Bool :=
  previous.any Message.announcesClose

/-! ### The observed client -/

/-- The connection of a write in progress. -/
def Phase.writing? : Phase → Option Connection
  | .writing connection _ => some connection
  | _ => none

/-- The stream of a connection that is not ready for a write yet. -/
def Phase.opening? : Phase → Option ℕ
  | .connecting stream _ | .handshaking stream => some stream
  | _ => none

namespace System

/-- The response that a step takes from a stream. -/
def answer (system : System) : Action → Option (ℕ × Message)
  | .complete index completion =>
      system.exchanges[index]?.bind fun exchange =>
        match exchange.phase with
        | .reading connection _ =>
            if completion.result = .success ∨ completion.result = .endOfStream then
              some (connection.stream, completion.message)
            else none
        | _ => none
  | _ => none

/-- The position of the request that a step starts or carries on. -/
def moving (system : System) : Action → Option ℕ
  | .request _ _ _ => some system.exchanges.length
  | .complete index _ => some index
  | _ => none

/-- The connection on which a step to the system `next` has started a write. -/
def started (system : System) (action : Action) (next : System) : Option Connection :=
  (system.moving action).bind fun index =>
    next.exchanges[index]?.bind fun exchange => exchange.phase.writing?

end System

/-- `previous` is the last response of each stream; `written` are the writes
started so far, each with the last response of its stream at that time. -/
structure Watched where
  system : System
  previous : ℕ → Option Message
  written : List (Connection × Option Message)

namespace Watched

def new (keepAlive : Bool) : Watched where
  system := .new keepAlive
  previous := fun _ => none
  written := []

/-- The responses after one more. -/
def heard (previous : ℕ → Option Message) : Option (ℕ × Message) → ℕ → Option Message
  | none => previous
  | some answer => Function.update previous answer.1 (some answer.2)

def step (isVerb : String → Bool) (watched : Watched) (action : Action) : Option Watched :=
  (watched.system.step isVerb action).map fun next =>
    { system := next
      previous := heard watched.previous (watched.system.answer action)
      written := watched.written ++
        (watched.system.started action next).toList.map fun connection =>
          (connection, watched.previous connection.stream) }

/-- No request was written on a connection whose response before had announced
its end. -/
def Clean (watched : Watched) : Prop :=
  ∀ write ∈ watched.written, announced write.2 = false

/-- Whenever a call finds a cached connection whose last response has announced
its end, the peek finds it closed, or the call fails before it writes. -/
def Noticed (isVerb : String → Bool) (watched : Watched) : Action → Prop
  | .request request peek _ =>
      ∀ connection ∈ watched.system.client.reusable request,
        announced (watched.previous connection.stream) = true →
          cachedConnectionDead peek = true ∨
            watched.system.client.refuses isVerb request = true
  | _ => True

instance (isVerb : String → Bool) (watched : Watched) :
    (action : Action) → Decidable (watched.Noticed isVerb action)
  | .request request peek _ =>
      inferInstanceAs (Decidable (∀ connection ∈ watched.system.client.reusable request,
        announced (watched.previous connection.stream) = true →
          cachedConnectionDead peek = true ∨
            watched.system.client.refuses isVerb request = true))
  | .complete _ _ | .setKeepAlive _ | .setMaxBodyBytes _ => .isTrue trivial

end Watched

/-! ### Fresh streams have carried nothing -/

/-- The streams in use are streams the client has made, and a stream that is
being opened belongs to one request alone and has carried no response. -/
structure Fresh (system : System) (previous : ℕ → Option Message) : Prop where
  held : ∀ exchange ∈ system.exchanges, ∀ stream, exchange.phase.stream? = some stream →
    stream < system.client.nextStream
  cached : ∀ connection, system.client.cached = some connection →
    connection.stream < system.client.nextStream
  answered : ∀ stream message, previous stream = some message →
    stream < system.client.nextStream
  unheard : ∀ exchange ∈ system.exchanges, ∀ stream, exchange.phase.opening? = some stream →
    previous stream = none
  uncached : ∀ exchange ∈ system.exchanges, ∀ stream, exchange.phase.opening? = some stream →
    ∀ connection, system.client.cached = some connection → connection.stream ≠ stream
  alone : ∀ (index : ℕ) (exchange : Exchange) (stream : ℕ),
    system.exchanges[index]? = some exchange → exchange.phase.opening? = some stream →
      ∀ (other : ℕ) (entry : Exchange), other ≠ index →
        system.exchanges[other]? = some entry → entry.phase.stream? ≠ some stream

theorem Phase.stream?_of_opening? {phase : Phase} {stream : ℕ}
    (opening : phase.opening? = some stream) : phase.stream? = some stream := by
  cases phase <;> first | exact opening | cases opening

namespace Fresh

variable {system : System} {previous : ℕ → Option Message}
variable {index : ℕ} {before after : Exchange}

theorem new (keepAlive : Bool) : Fresh (System.new keepAlive) fun _ => none where
  held := by simp [System.new]
  cached := by simp [System.new, Client.new]
  answered := by simp
  unheard := by simp
  uncached := by simp [System.new]
  alone := by simp [System.new]

/-- A response arrives on the stream of a request that is past its opening. -/
theorem hear (fresh : Fresh system previous) {stream : ℕ}
    (found : system.exchanges[index]? = some before)
    (holds : before.phase.stream? = some stream) (past : before.phase.opening? = none)
    (message : Message) :
    Fresh system (Function.update previous stream (some message)) where
  held := fresh.held
  cached := fresh.cached
  answered other text heard := by
    rcases eq_or_ne other stream with rfl | distinct
    · exact fresh.held before (List.mem_of_getElem? found) other holds
    · rw [Function.update_of_ne distinct] at heard
      exact fresh.answered other text heard
  unheard exchange member other opening := by
    obtain ⟨position, located⟩ := List.mem_iff_getElem?.mp member
    -- the request that is answered is past its opening, so this is another one's stream
    have distinct : other ≠ stream := by
      rintro rfl
      rcases eq_or_ne index position with rfl | apart
      · obtain rfl := Option.some.inj (found.symm.trans located)
        rw [past] at opening
        cases opening
      · exact fresh.alone position exchange other located opening index before apart found holds
    rw [Function.update_of_ne distinct]
    exact fresh.unheard exchange member other opening
  uncached := fresh.uncached
  alone := fresh.alone

/-- The client changes its cache at most by dropping what it holds. -/
theorem settle (fresh : Fresh system previous) {client : Client}
    (settled : system.client.Settled client) :
    Fresh { system with client := client } previous := by
  have kept : ∀ connection, client.cached = some connection →
      system.client.cached = some connection := by
    intro connection cached
    rcases settled.cached with same | dropped
    · exact same ▸ cached
    · simp [dropped] at cached
  constructor
  · simpa only [settled.nextStream] using fresh.held
  · intro connection cached
    simpa only [settled.nextStream] using fresh.cached connection (kept connection cached)
  · simpa only [settled.nextStream] using fresh.answered
  · exact fresh.unheard
  · intro exchange member stream opening connection cached
    exact fresh.uncached exchange member stream opening connection (kept connection cached)
  · exact fresh.alone

/-- A request goes on with its stream or lets go of it. -/
theorem move (fresh : Fresh system previous) (found : system.exchanges[index]? = some before)
    (streams : ∀ stream, after.phase.stream? = some stream → before.phase.stream? = some stream)
    (openings : ∀ stream, after.phase.opening? = some stream →
      before.phase.opening? = some stream) :
    Fresh { system with exchanges := system.exchanges.set index after } previous := by
  have member := List.mem_of_getElem? found
  constructor
  · intro exchange present stream holds
    rcases List.mem_or_eq_of_mem_set present with old | rfl
    · exact fresh.held exchange old stream holds
    · exact fresh.held before member stream (streams stream holds)
  · exact fresh.cached
  · exact fresh.answered
  · intro exchange present stream opening
    rcases List.mem_or_eq_of_mem_set present with old | rfl
    · exact fresh.unheard exchange old stream opening
    · exact fresh.unheard before member stream (openings stream opening)
  · intro exchange present stream opening
    rcases List.mem_or_eq_of_mem_set present with old | rfl
    · exact fresh.uncached exchange old stream opening
    · exact fresh.uncached before member stream (openings stream opening)
  · intro position exchange stream located opening other entry distinct present
    rcases Roster.getElem?_set_cases located with ⟨rfl, rfl⟩ | ⟨apart, earlier⟩
    · rcases Roster.getElem?_set_cases present with ⟨same, -⟩ | ⟨-, old⟩
      · exact absurd same distinct
      · exact fresh.alone position before stream found (openings stream opening) other entry
          distinct old
    · rcases Roster.getElem?_set_cases present with ⟨rfl, rfl⟩ | ⟨-, old⟩
      · intro holds
        exact fresh.alone position exchange stream earlier opening other before distinct found
          (streams stream holds)
      · exact fresh.alone position exchange stream earlier opening other entry distinct old

/-- A request makes a new stream. -/
theorem make (fresh : Fresh system previous) (found : system.exchanges[index]? = some before)
    (made : after.phase.stream? = some system.client.nextStream) :
    Fresh
      { client := { system.client with nextStream := system.client.nextStream + 1 }
        exchanges := system.exchanges.set index after } previous := by
  have own : ∀ stream, after.phase.stream? = some stream →
      stream = system.client.nextStream :=
    fun stream holds => Option.some.inj (holds.symm.trans made)
  constructor
  · intro exchange present stream holds
    rcases List.mem_or_eq_of_mem_set present with old | rfl
    · exact (fresh.held exchange old stream holds).trans (Nat.lt_succ_self _)
    · exact own stream holds ▸ Nat.lt_succ_self _
  · intro connection cached
    exact (fresh.cached connection cached).trans (Nat.lt_succ_self _)
  · intro stream message heard
    exact (fresh.answered stream message heard).trans (Nat.lt_succ_self _)
  · intro exchange present stream opening
    rcases List.mem_or_eq_of_mem_set present with old | rfl
    · exact fresh.unheard exchange old stream opening
    · obtain rfl := own stream (Phase.stream?_of_opening? opening)
      refine Option.eq_none_iff_forall_ne_some.mpr fun message heard => ?_
      exact (fresh.answered _ message heard).false
  · intro exchange present stream opening connection cached
    rcases List.mem_or_eq_of_mem_set present with old | rfl
    · exact fresh.uncached exchange old stream opening connection cached
    · obtain rfl := own stream (Phase.stream?_of_opening? opening)
      exact (fresh.cached connection cached).ne
  · intro position exchange stream located opening other entry distinct present holds
    rcases Roster.getElem?_set_cases located with ⟨rfl, rfl⟩ | ⟨apart, earlier⟩
    · obtain rfl := own stream (Phase.stream?_of_opening? opening)
      rcases Roster.getElem?_set_cases present with ⟨same, -⟩ | ⟨-, old⟩
      · exact distinct same
      · exact (fresh.held entry (List.mem_of_getElem? old) _ holds).false
    · rcases Roster.getElem?_set_cases present with ⟨rfl, rfl⟩ | ⟨-, old⟩
      · obtain rfl := own stream holds
        have below := fresh.held exchange (List.mem_of_getElem? earlier) _
          (Phase.stream?_of_opening? opening)
        exact below.false
      · exact fresh.alone position exchange stream earlier opening other entry distinct old holds

/-- The stream of a request that has been answered becomes the cached one. -/
theorem keep (fresh : Fresh system previous) {connection : Connection}
    (found : system.exchanges[index]? = some before)
    (held : before.phase.stream? = some connection.stream)
    (released : after.phase.stream? = none) :
    Fresh
      { client := system.client.cacheConnection connection
        exchanges := system.exchanges.set index after } previous := by
  have idle : after.phase.opening? = none := by
    cases opening : after.phase.opening? with
    | none => rfl
    | some stream =>
        rw [Phase.stream?_of_opening? opening] at released
        cases released
  have moved : Fresh { system with exchanges := system.exchanges.set index after } previous :=
    fresh.move found (by simp [released]) (by simp [idle])
  refine ⟨moved.held, ?_, moved.answered, moved.unheard, ?_, moved.alone⟩
  · intro other cached
    cases cached
    exact fresh.held before (List.mem_of_getElem? found) _ held
  · intro exchange present stream opening other cached same
    cases cached
    rcases Roster.mem_set_cases present with rfl | ⟨position, distinct, located⟩
    · rw [idle] at opening
      cases opening
    · exact fresh.alone position exchange stream located opening index before distinct.symm found
        (same ▸ held)

/-- A new request, which holds at most the cached stream. -/
theorem add (fresh : Fresh system previous) {added : Exchange}
    (borrowed : ∀ stream, added.phase.stream? = some stream →
      ∃ connection, system.client.cached = some connection ∧ connection.stream = stream)
    (past : added.phase.opening? = none) :
    Fresh { system with exchanges := system.exchanges ++ [added] } previous := by
  have old : ∀ exchange ∈ system.exchanges ++ [added], ∀ stream,
      exchange.phase.opening? = some stream → exchange ∈ system.exchanges := by
    intro exchange present stream opening
    rcases List.mem_append.mp present with earlier | new
    · exact earlier
    · rw [List.mem_singleton.mp new, past] at opening
      cases opening
  constructor
  · intro exchange present stream holds
    rcases List.mem_append.mp present with earlier | new
    · exact fresh.held exchange earlier stream holds
    · rw [List.mem_singleton.mp new] at holds
      obtain ⟨connection, cached, rfl⟩ := borrowed stream holds
      exact fresh.cached connection cached
  · exact fresh.cached
  · exact fresh.answered
  · intro exchange present stream opening
    exact fresh.unheard exchange (old exchange present stream opening) stream opening
  · intro exchange present stream opening
    exact fresh.uncached exchange (old exchange present stream opening) stream opening
  · intro position exchange stream located opening other entry distinct present
    rcases Roster.getElem?_concat_cases located with earlier | ⟨-, rfl⟩
    · rcases Roster.getElem?_concat_cases present with before | ⟨-, rfl⟩
      · exact fresh.alone position exchange stream earlier opening other entry distinct before
      · intro holds
        obtain ⟨connection, cached, same⟩ := borrowed stream holds
        exact fresh.uncached exchange (List.mem_of_getElem? earlier) stream opening connection
          cached same
    · rw [past] at opening
      cases opening

theorem complete (fresh : Fresh system previous) {client : Client}
    (found : system.exchanges[index]? = some before)
    (turn : Turn system.client before.phase client after.phase) :
    Fresh { client := client, exchanges := system.exchanges.set index after } previous := by
  generalize beforeEq : before.phase = phase at turn
  generalize afterEq : after.phase = next at turn
  cases turn with
  | finish settled | resolve settled =>
      refine settle (fresh.move found ?_ ?_) settled
      · simp [afterEq, Phase.stream?]
      · simp [afterEq, Phase.opening?]
  | connect tls => exact fresh.make found (by rw [afterEq]; rfl)
  | handshake | send | sendTls | await =>
      exact fresh.move found (by simp [beforeEq, afterEq, Phase.stream?])
        (by simp [beforeEq, afterEq, Phase.opening?])
  | keep connection =>
      exact fresh.keep found (by rw [beforeEq]; rfl) (by rw [afterEq]; rfl)

theorem request (fresh : Fresh system previous) (isVerb : String → Bool) (request : Request)
    (peek : Peek) (startTime : ℤ) :
    Fresh
      { client := (asyncRequest isVerb system.client request peek startTime).1
        exchanges := system.exchanges ++
          [(asyncRequest isVerb system.client request peek startTime).2] } previous := by
  have opening := asyncRequest_opening isVerb system.client request peek startTime
  generalize asyncRequest isVerb system.client request peek startTime = result at opening
  obtain ⟨client, added⟩ := result
  dsimp only at opening ⊢
  generalize phaseEq : added.phase = phase at opening
  cases opening with
  | finish settled | resolve settled =>
      refine settle (fresh.add ?_ (by rw [phaseEq]; rfl)) settled
      simp [phaseEq, Phase.stream?]
  | reuse connection reusable alive =>
      refine fresh.add ?_ (by rw [phaseEq]; rfl)
      intro stream holds
      rw [phaseEq] at holds
      exact ⟨connection, Client.cached_of_reusable reusable, Option.some.inj holds⟩

end Fresh

namespace System

variable {system : System}

/-- A response comes on the stream of the request whose read has completed. -/
theorem answer_eq_some {index : ℕ} {completion : Completion} {exchange : Exchange}
    {stream : ℕ} {message : Message} (found : system.exchanges[index]? = some exchange)
    (answers : system.answer (.complete index completion) = some (stream, message)) :
    exchange.phase.stream? = some stream ∧ exchange.phase.opening? = none := by
  simp only [answer, found, Option.bind_some] at answers
  split at answers
  · rename_i connection reused phaseEq
    split at answers <;> cases answers
    rw [phaseEq]
    exact ⟨rfl, rfl⟩
  · cases answers

end System

namespace Watched

variable {isVerb : String → Bool} {watched next : Watched} {action : Action}

theorem fresh_step (fresh : Fresh watched.system watched.previous)
    (taken : watched.step isVerb action = some next) : Fresh next.system next.previous := by
  obtain ⟨system, stepped, rfl⟩ := Option.map_eq_some_iff.mp taken
  dsimp only
  cases action with
  | request request peek startTime =>
      cases stepped
      exact fresh.request isVerb request peek startTime
  | complete index completion =>
      simp only [System.step, Option.bind_eq_some_iff, Option.map_eq_some_iff] at stepped
      obtain ⟨exchange, found, result, completed, rfl⟩ := stepped
      have turn := complete_turn completed
      cases answers : watched.system.answer (.complete index completion) with
      | none => exact fresh.complete found turn
      | some answer =>
          obtain ⟨holds, past⟩ := System.answer_eq_some found answers
          exact (fresh.hear found holds past answer.2).complete found turn
  | setKeepAlive keepAlive =>
      cases stepped
      refine fresh.settle ⟨rfl, ?_⟩
      cases keepAlive with
      | false => exact .inr rfl
      | true => exact .inl rfl
  | setMaxBodyBytes bytes =>
      cases stepped
      exact fresh.settle ⟨rfl, .inl rfl⟩

theorem clean_next_iff (taken : watched.step isVerb action = some next) :
    next.Clean ↔ watched.Clean ∧
      ∀ connection ∈ watched.system.started action next.system,
        announced (watched.previous connection.stream) = false := by
  obtain ⟨system, -, rfl⟩ := Option.map_eq_some_iff.mp taken
  dsimp only [Clean]
  constructor
  · intro clean
    refine ⟨fun write member => clean write (List.mem_append_left _ member), ?_⟩
    intro connection started
    refine clean (connection, watched.previous connection.stream) (List.mem_append_right _ ?_)
    exact List.mem_map_of_mem (Option.mem_toList.mpr started)
  · rintro ⟨clean, fresh⟩ write member
    rcases List.mem_append.mp member with earlier | new
    · exact clean write earlier
    · obtain ⟨connection, started, rfl⟩ := List.mem_map.mp new
      exact fresh connection (Option.mem_toList.mp started)

/-- A callback writes only on streams that have carried nothing. -/
theorem unheard_of_started (fresh : Fresh watched.system watched.previous) {index : ℕ}
    {completion : Completion} {system : System} {connection : Connection}
    (stepped : watched.system.step isVerb (.complete index completion) = some system)
    (started : watched.system.started (.complete index completion) system = some connection) :
    watched.previous connection.stream = none := by
  simp only [System.step, Option.bind_eq_some_iff, Option.map_eq_some_iff] at stepped
  obtain ⟨exchange, found, ⟨client, result⟩, completed, rfl⟩ := stepped
  have turn := complete_turn completed
  have member := List.mem_of_getElem? found
  simp only [System.started, System.moving, Option.bind_some,
    Roster.getElem?_set_self found] at started
  dsimp only at turn
  generalize beforeEq : exchange.phase = phase at turn
  generalize result.phase = after at turn started
  cases turn with
  | send other | sendTls other =>
      -- the only turns into a write come from a stream that was being opened
      cases started
      exact fresh.unheard exchange member _ (by rw [beforeEq]; rfl)
  | finish | resolve | connect | handshake | await | keep => cases started

/-- A call writes at once exactly on a reusable connection that the peek finds
alive. -/
theorem asyncRequest_writing? (isVerb : String → Bool) (client : Client) (request : Request)
    (peek : Peek) (startTime : ℤ) :
    (asyncRequest isVerb client request peek startTime).2.phase.writing? =
      if client.refuses isVerb request || cachedConnectionDead peek then none
      else client.reusable request := by
  have fresh : ∀ (client : Client) (exchange : Exchange),
      (requestFresh isVerb client exchange).2.phase.writing? = none := by
    intro client exchange
    exact requestFresh_cases (fun _ phase => phase.writing? = none) rfl rfl isVerb exchange
  unfold asyncRequest
  dsimp only
  by_cases missing : (request.useTls && !client.tlsContext) = true
  · simp only [missing, if_true, Client.refuses, Bool.true_or]
    rfl
  rw [if_neg missing]
  cases reusable : client.reusable request with
  | none =>
      dsimp only
      rw [fresh, ite_self]
  | some connection =>
      dsimp only [requestOnCached]
      have refuses : client.refuses isVerb request =
          (!isVerb request.method || request.throws) := by
        simp [Client.refuses, Bool.eq_false_iff.mpr missing]
      rw [refuses]
      unfold buildRequest
      cases known : isVerb request.method with
      | false => rfl
      | true =>
          cases throws : request.throws with
          | true => rfl
          | false =>
              simp only [if_true, Bool.false_eq_true, if_false, Bool.not_true, Bool.false_or]
              split
              · rw [fresh]
              · split <;> rfl

theorem clean_step_iff (fresh : Fresh watched.system watched.previous)
    (taken : watched.step isVerb action = some next) :
    next.Clean ↔ watched.Clean ∧ watched.Noticed isVerb action := by
  rw [clean_next_iff taken]
  refine and_congr_right fun _ => ?_
  obtain ⟨system, stepped, rfl⟩ := Option.map_eq_some_iff.mp taken
  dsimp only
  cases action with
  | request request peek startTime =>
      cases stepped
      simp only [System.started, System.moving, Option.bind_some, List.getElem?_concat_length,
        asyncRequest_writing?, Noticed]
      cases refused : watched.system.client.refuses isVerb request
      · cases dead : cachedConnectionDead peek
        · simp
        · simp
      · simp
  | complete index completion =>
      refine iff_of_true (fun connection started => ?_) trivial
      rw [unheard_of_started fresh stepped started]
      rfl
  | setKeepAlive | setMaxBodyBytes =>
      exact iff_of_true (by simp [System.started, System.moving]) trivial

/-- In every run of a client, no request is written on a connection whose last
response has announced its end, exactly when every call that finds such a
connection in the cache is told by the peek that it is closed. -/
theorem never_reuses_announced_iff (isVerb : String → Bool) (keepAlive : Bool)
    (actions : List Action) (last : Watched)
    (executes : run (step isVerb) (.new keepAlive) actions = some last) :
    last.Clean ↔
      guardedRun (step isVerb) (Noticed isVerb) (.new keepAlive) actions = some last := by
  have exactly := guardedRun_iff executes (Fresh.new keepAlive)
    (fun _ _ _ fresh taken => fresh_step fresh taken)
    (fun _ _ _ fresh taken => clean_step_iff fresh taken)
  rw [exactly]
  exact and_iff_right (by simp [Clean, new])

/-- A response that announces the end of its connection. -/
def farewell : Completion :=
  ⟨.success, ⟨200, 11, [], [("Connection", "close")]⟩, true, 5000⟩

/-- A request on a fresh connection that is answered with `farewell`. -/
def lastExchange : List Action :=
  [.request (getRoot "a") .wouldBlock 0, .complete 0 succeeds, .complete 0 succeeds,
    .complete 0 succeeds, .complete 0 farewell]

def postRoot (host : String) : Request :=
  ⟨"POST", [47], [], [], host, 80, false⟩

/-- The server's FIN has arrived before the second call, which then opens a
connection of its own. -/
theorem never_reuses_announced_after_fin :
    ∃ last : Watched,
      run (step (· = "GET")) (.new true)
        (lastExchange ++ [.request (getRoot "a") .failed 0, .complete 1 succeeds,
          .complete 1 succeeds]) = some last ∧
      last.written.map (fun write => write.1.stream) = [0, 1] ∧ last.Clean := by
  have evaluated :
      (guardedRun (step (· = "GET")) (Noticed (· = "GET")) (.new true)
        (lastExchange ++ [.request (getRoot "a") .failed 0, .complete 1 succeeds,
          .complete 1 succeeds])).map
        (fun last => last.written.map fun write => write.1.stream) = some [0, 1] := by
    decide +kernel
  obtain ⟨last, guarded, streams⟩ := Option.map_eq_some_iff.mp evaluated
  have executes := run_of_guardedRun guarded
  exact ⟨last, executes, streams,
    (never_reuses_announced_iff _ true _ last executes).mpr guarded⟩

/-- The FIN has not arrived yet: a `POST` is written on the connection that the
server is closing, and fails. -/
theorem announced_connection_reused :
    ∃ last : Watched,
      run (step (fun method => method = "GET" || method = "POST")) (.new true)
        (lastExchange ++ [.request (postRoot "a") .wouldBlock 0,
          .complete 1 ⟨.other, ⟨0, 11, [], []⟩, true, 6000⟩]) = some last ∧
      last.written =
        [(⟨0, "a", 80, false⟩, none), (⟨0, "a", 80, false⟩, some farewell.message)] ∧
      announced (some farewell.message) = true ∧
      (last.system.exchanges[1]?.map Exchange.log) =
        some [.wrote ⟨0, "a", 80, false⟩ true, .handled { ec := some .writeError }] ∧
      ¬last.Clean := by
  have evaluated :
      (run (step (fun method => method = "GET" || method = "POST")) (.new true)
        (lastExchange ++ [.request (postRoot "a") .wouldBlock 0,
          .complete 1 ⟨.other, ⟨0, 11, [], []⟩, true, 6000⟩])).map
        (fun last => (last.written, last.system.exchanges[1]?.map Exchange.log)) =
      some
        ([(⟨0, "a", 80, false⟩, none), (⟨0, "a", 80, false⟩, some farewell.message)],
          some [.wrote ⟨0, "a", 80, false⟩ true,
            .handled { ec := some .writeError }]) := by
    decide +kernel
  have closes : announced (some farewell.message) = true := by decide +kernel
  obtain ⟨last, executes, results⟩ := Option.map_eq_some_iff.mp evaluated
  obtain ⟨written, log⟩ := Prod.mk.inj results
  refine ⟨last, executes, written, closes, log, fun clean => ?_⟩
  have second := clean (⟨0, "a", 80, false⟩, some farewell.message) (by rw [written]; simp)
  rw [closes] at second
  cases second

end Watched

end Cppload.Http11
