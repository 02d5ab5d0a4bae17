import Cppload.Http11ClientConnections

/-!
# From which bytes a response is parsed

The bytes that a server sends on a connection pass through three places before
they are consumed: they are on their way, they have arrived at the socket, or a
read has moved them into the buffer that belongs to the connection.  A read
completes with the first message in the buffer and leaves the surplus there; the
buffer is cached with the connection.  The peek by which the client judges a
cached connection sees the socket only.

Every byte remembers how many requests had been started on its connection when
the server sent it, and every request how many there were when it was written
itself.  Beast's parser is a parameter.
-/

namespace Cppload.Http11

open Transition

/-- A byte of the server, and the number of writes the client had started on the
connection when the server sent it. -/
structure SentByte where
  value : UInt8
  round : ℕ
  deriving DecidableEq, Repr

/-- The bytes of one connection that no response has been parsed from. -/
structure Wire where
  writes : ℕ
  inFlight : List SentByte
  socket : List SentByte
  buffer : List SentByte
  deriving DecidableEq, Repr

namespace Wire

def new : Wire where
  writes := 0
  inFlight := []
  socket := []
  buffer := []

/-- All bytes that a later read can still bring. -/
def unread (wire : Wire) : List SentByte :=
  wire.inFlight ++ wire.socket ++ wire.buffer

/-- `http::async_write` is called. -/
def startWrite (wire : Wire) : Wire :=
  { wire with writes := wire.writes + 1 }

/-- The server sends bytes, whatever it has received so far. -/
def serverSends (wire : Wire) (bytes : List UInt8) : Wire :=
  { wire with
    inFlight := wire.inFlight ++ bytes.map fun byte => ⟨byte, wire.writes⟩ }

/-- A segment of the given length arrives at the socket. -/
def arrive (wire : Wire) (count : ℕ) : Wire :=
  { wire with
    inFlight := wire.inFlight.drop count
    socket := wire.socket ++ wire.inFlight.take count }

/-- `async_read_some` moves bytes from the socket into the buffer. -/
def receive (wire : Wire) (count : ℕ) : Wire :=
  { wire with
    socket := wire.socket.drop count
    buffer := wire.buffer ++ wire.socket.take count }

/-- The parser consumes the first bytes of the buffer. -/
def consume (wire : Wire) (count : ℕ) : Wire :=
  { wire with buffer := wire.buffer.drop count }

/-- What the one-byte peek of `cached_connection_dead` can answer. -/
def shows (wire : Wire) : Peek → Bool
  | .wouldBlock | .tryAgain => wire.socket.isEmpty
  | .received => !wire.socket.isEmpty
  | .setupFailed | .failed => true

end Wire

/-- What Beast makes of the bytes in the buffer: a complete message and the number
of bytes it takes, or nothing yet. -/
abbrev Parser :=
  List UInt8 → Option (Message × ℕ)

/-- A response that was handed to the request with the given index: the message,
the bytes it was parsed from, and the round of the request. -/
structure Delivery where
  index : ℕ
  round : ℕ
  message : Message
  bytes : List SentByte
  deriving DecidableEq, Repr

/-- A client with the bytes of all its connections.  `rounds` gives for every
request the number of writes on its connection when its own was started. -/
structure WireSystem where
  system : System
  wires : ℕ → Wire
  rounds : ℕ → ℕ
  delivered : List Delivery

/-- Calls on the client, completions, and what server and network do. -/
inductive WireAction where
  | request (request : Request) (peek : Peek) (startTime : ℤ)
  | complete (index : ℕ) (completion : Completion)
  | read (index received : ℕ) (now : ℤ)
  | serverSends (stream : ℕ) (bytes : List UInt8)
  | arrive (stream count : ℕ)
  | setKeepAlive (keepAlive : Bool)
  | setMaxBodyBytes (bytes : ℕ)

def Phase.reading? : Phase → Option Connection
  | .reading connection _ => some connection
  | _ => none

/-- The stream on which a request writes when its outstanding operation succeeds. -/
def Phase.sends? : Phase → Option ℕ
  | .connecting stream false | .handshaking stream => some stream
  | _ => none

namespace WireSystem

def new (keepAlive : Bool) : WireSystem where
  system := .new keepAlive
  wires := fun _ => .new
  rounds := fun _ => 0
  delivered := []

/-- The client made a step with the request of the given index.  When the request
is now waiting for a write, the write has just been started. -/
def proceed (state : WireSystem) (after : System) (index : ℕ) : WireSystem :=
  match after.exchanges[index]?.map Exchange.phase with
  | some (.writing connection _) =>
      let wire := (state.wires connection.stream).startWrite
      { state with
        system := after
        wires := Function.update state.wires connection.stream wire
        rounds := Function.update state.rounds index wire.writes }
  | _ => { state with system := after }

def updateWire (state : WireSystem) (stream : ℕ) (change : Wire → Wire) : WireSystem :=
  { state with wires := Function.update state.wires stream (change (state.wires stream)) }

/-- One step of the client, of a server or of the network.  A read that completes
with a message is `read`; `complete` is every other completion. -/
def step (isVerb : String → Bool) (parser : Parser) (state : WireSystem) :
    WireAction → Option WireSystem
  | .request request peek startTime =>
      if (state.system.client.reusable request).all fun connection =>
          (state.wires connection.stream).shows peek then
        (state.system.step isVerb (.request request peek startTime)).map fun after =>
          state.proceed after state.system.exchanges.length
      else none
  | .complete index completion =>
      state.system.exchanges[index]?.bind fun exchange =>
        if exchange.phase.reading?.isSome && completion.result = .success then none
        else
          (state.system.step isVerb (.complete index completion)).map fun after =>
            state.proceed after index
  | .read index received now =>
      state.system.exchanges[index]?.bind fun exchange =>
        exchange.phase.reading?.bind fun connection =>
          let wire := (state.wires connection.stream).receive received
          (parser (wire.buffer.map SentByte.value)).bind fun parsed =>
            (state.system.step isVerb
                (.complete index ⟨.success, parsed.1, true, now⟩)).map fun after =>
              { state with
                system := after
                wires := Function.update state.wires connection.stream
                  (wire.consume parsed.2)
                delivered := state.delivered ++
                  [⟨index, state.rounds index, parsed.1, wire.buffer.take parsed.2⟩] }
  | .serverSends stream bytes =>
      some (state.updateWire stream fun wire => wire.serverSends bytes)
  | .arrive stream count =>
      some (state.updateWire stream fun wire => wire.arrive count)
  | .setKeepAlive keepAlive =>
      (state.system.step isVerb (.setKeepAlive keepAlive)).map fun after =>
        { state with system := after }
  | .setMaxBodyBytes bytes =>
      (state.system.step isVerb (.setMaxBodyBytes bytes)).map fun after =>
        { state with system := after }

/-- Every call is made after the handler of the previous request has run. -/
def Sequential (state : WireSystem) : WireAction → Prop
  | .request _ _ _ => ∀ exchange ∈ state.system.exchanges, exchange.phase = .idle
  | _ => True

/-- A write is started only when the server has sent nothing that the client
cannot see: when a cached connection is found alive, its buffer is empty and
nothing is on its way; on a fresh connection nothing was sent at all. -/
def Quiet (state : WireSystem) : WireAction → Prop
  | .request request peek _ =>
      ∀ connection ∈ state.system.client.reusable request,
        cachedConnectionDead peek = false →
          (state.wires connection.stream).buffer = [] ∧
            (state.wires connection.stream).inFlight = []
  | .complete index completion =>
      ∀ exchange ∈ state.system.exchanges[index]?, ∀ stream ∈ exchange.phase.sends?,
        completion.result = .success →
          (state.wires stream).socket = [] ∧ (state.wires stream).inFlight = []
  | _ => True

end WireSystem

/-- The response was parsed only from bytes the server sent after the request was
written. -/
def Delivery.Fresh (delivery : Delivery) : Prop :=
  ∀ byte ∈ delivery.bytes, delivery.round ≤ byte.round

section Wires

variable {wire : Wire} {byte : SentByte} {round : ℕ}

theorem Wire.mem_unread :
    byte ∈ wire.unread ↔ byte ∈ wire.inFlight ∨ byte ∈ wire.socket ∨ byte ∈ wire.buffer := by
  simp [Wire.unread]

@[simp]
theorem Wire.unread_startWrite : wire.startWrite.unread = wire.unread :=
  rfl

theorem Wire.mem_unread_arrive {count : ℕ} :
    byte ∈ (wire.arrive count).unread ↔ byte ∈ wire.unread := by
  have split : byte ∈ wire.inFlight ↔
      byte ∈ wire.inFlight.take count ∨ byte ∈ wire.inFlight.drop count := by
    rw [← List.mem_append, List.take_append_drop]
  simp only [Wire.mem_unread, Wire.arrive, List.mem_append, split]
  tauto

theorem Wire.mem_unread_receive {count : ℕ} :
    byte ∈ (wire.receive count).unread ↔ byte ∈ wire.unread := by
  have split : byte ∈ wire.socket ↔
      byte ∈ wire.socket.take count ∨ byte ∈ wire.socket.drop count := by
    rw [← List.mem_append, List.take_append_drop]
  simp only [Wire.mem_unread, Wire.receive, List.mem_append, split]
  tauto

theorem Wire.mem_unread_serverSends {bytes : List UInt8}
    (member : byte ∈ (wire.serverSends bytes).unread) :
    byte ∈ wire.unread ∨ byte.round = wire.writes := by
  simp only [Wire.mem_unread, Wire.serverSends, List.mem_append, List.mem_map] at member ⊢
  rcases member with (old | ⟨value, -, rfl⟩) | arrived
  · exact .inl (.inl old)
  · exact .inr rfl
  · exact .inl (.inr arrived)

/-- A socket that the peek finds empty and alive holds nothing. -/
theorem Wire.socket_eq_nil {peek : Peek} (shown : wire.shows peek = true)
    (alive : cachedConnectionDead peek = false) : wire.socket = [] := by
  cases peek <;> simp_all [Wire.shows, cachedConnectionDead]

/-- The bytes still to be read are at least as new as a request. -/
def Wire.Since (wire : Wire) (round : ℕ) : Prop :=
  round ≤ wire.writes ∧ ∀ byte ∈ wire.unread, round ≤ byte.round

theorem Wire.Since.serverSends (since : wire.Since round) (bytes : List UInt8) :
    (wire.serverSends bytes).Since round := by
  refine ⟨since.1, ?_⟩
  intro byte member
  rcases Wire.mem_unread_serverSends member with old | now
  · exact since.2 byte old
  · exact now ▸ since.1

theorem Wire.Since.arrive (since : wire.Since round) (count : ℕ) :
    (wire.arrive count).Since round :=
  ⟨since.1, fun byte member => since.2 byte (Wire.mem_unread_arrive.mp member)⟩

end Wires

theorem Phase.reading_of_reading? {phase : Phase} {connection : Connection}
    (reading : phase.reading? = some connection) :
    ∃ reused, phase = .reading connection reused := by
  cases phase with
  | reading other reused => exact ⟨reused, by rw [Option.some.inj reading]⟩
  | resolving | connecting | handshaking | writing | idle => cases reading

/-- The end of a read is the end of the use of the connection. -/
theorem Turn.released_of_reading {client next : Client} {connection : Connection}
    {reused : Bool} {phase : Phase}
    (turn : Turn client (.reading connection reused) next phase) : phase.stream? = none := by
  cases turn <;> rfl

theorem Phase.unused_of_sends {phase : Phase} {stream : ℕ}
    (sends : phase.sends? = some stream) :
    phase.stream? = some stream ∧ phase.uses stream = false := by
  cases phase with
  | connecting made tls =>
      cases tls with
      | false => exact ⟨sends, rfl⟩
      | true => cases sends
  | handshaking made => exact ⟨sends, rfl⟩
  | resolving | writing | reading | idle => cases sends

/-- The request goes on to its write only when the connection or the handshake
succeeded. -/
theorem complete_succeeds {isVerb : String → Bool} {client : Client} {exchange : Exchange}
    {completion : Completion} {result : Client × Exchange} {connection : Connection}
    {stream : ℕ} (taken : complete isVerb client exchange completion = some result)
    (sends : exchange.phase.sends? = some stream)
    (writes : result.2.phase = .writing connection false) :
    completion.result = .success := by
  unfold complete at taken
  cases phaseEq : exchange.phase with
  | connecting made tls =>
      cases tls with
      | false =>
          simp only [phaseEq, Option.some.injEq, onConnectTcp] at taken
          subst taken
          split at writes
          · assumption
          · simp [Exchange.handle] at writes
          · simp [Exchange.handle] at writes
      | true => simp [phaseEq, Phase.sends?] at sends
  | handshaking made =>
      simp only [phaseEq, Option.some.injEq, onHandshake] at taken
      subst taken
      split at writes
      · assumption
      · simp [Exchange.handle] at writes
  | resolving | writing | reading | idle => simp [phaseEq, Phase.sends?] at sends

namespace WireSystem

variable {state : WireSystem}

/-- The request with the given index makes a step; nothing else changes. -/
structure Advances (before after : System) (index : ℕ) (exchange : Exchange) : Prop where
  exclusive : after.Exclusive
  grows : before.client.nextStream ≤ after.client.nextStream
  found : after.exchanges[index]? = some exchange
  others : ∀ other, other ≠ index → ∀ entry, after.exchanges[other]? = some entry →
    before.exchanges[other]? = some entry

theorem Advances.located_cases {before after : System} {index position : ℕ}
    {exchange entry : Exchange} (advances : Advances before after index exchange)
    (located : after.exchanges[position]? = some entry) :
    position = index ∧ entry = exchange ∨
      position ≠ index ∧ before.exchanges[position]? = some entry := by
  by_cases same : position = index
  · subst same
    exact Or.inl ⟨rfl, Option.some.inj (located.symm.trans advances.found)⟩
  · exact Or.inr ⟨same, advances.others position same entry located⟩

theorem Advances.stream_ne {before after : System} {index position : ℕ}
    {exchange entry : Exchange} (advances : Advances before after index exchange)
    {stream held : ℕ} (holds : exchange.phase.stream? = some held)
    (distinct : position ≠ index) (located : after.exchanges[position]? = some entry)
    (entryHolds : entry.phase.stream? = some stream) : stream ≠ held := by
  rintro rfl
  exact Roster.select_ne_of_nodup advances.exclusive.nodup distinct.symm advances.found
    located holds entryHolds

/-- When a request lets go of its stream, whoever holds a stream afterwards held it before,
and it is another one. -/
theorem Advances.apart_of_released {before after : System} {index position : ℕ}
    {earlier exchange entry : Exchange} (advances : Advances before after index exchange)
    (exclusive : before.Exclusive) (found : before.exchanges[index]? = some earlier)
    {stream held : ℕ} (holds : earlier.phase.stream? = some held)
    (released : exchange.phase.stream? = none)
    (located : after.exchanges[position]? = some entry)
    (entryHolds : entry.phase.stream? = some stream) :
    stream ≠ held ∧ before.exchanges[position]? = some entry := by
  rcases advances.located_cases located with ⟨-, rfl⟩ | ⟨distinct, old⟩
  · simp [released] at entryHolds
  · refine ⟨?_, old⟩
    rintro rfl
    exact Roster.select_ne_of_nodup exclusive.nodup distinct.symm found old holds entryHolds

theorem proceed_of_writing {after : System} {index : ℕ} {exchange : Exchange}
    {connection : Connection} {reused : Bool}
    (found : after.exchanges[index]? = some exchange)
    (writes : exchange.phase = .writing connection reused) :
    state.proceed after index =
      { state with
        system := after
        wires := Function.update state.wires connection.stream
          (state.wires connection.stream).startWrite
        rounds := Function.update state.rounds index
          (state.wires connection.stream).startWrite.writes } := by
  simp only [WireSystem.proceed, found, Option.map_some, writes]

theorem proceed_of_not_writing {after : System} {index : ℕ} {exchange : Exchange}
    (found : after.exchanges[index]? = some exchange)
    (waits : ∀ connection reused, exchange.phase ≠ .writing connection reused) :
    state.proceed after index = { state with system := after } := by
  simp only [WireSystem.proceed, found, Option.map_some]
  cases phaseEq : exchange.phase with
  | writing connection reused => exact absurd phaseEq (waits connection reused)
  | resolving | connecting | handshaking | reading | idle => rfl

/-- What holds of the bytes on every connection.  The buffer of a connection that
no request has been written on yet is empty, and a connection in use has only
bytes that are as new as the request using it. -/
structure Current (state : WireSystem) : Prop where
  exclusive : state.system.Exclusive
  unmade : ∀ stream, state.system.client.nextStream ≤ stream →
    (state.wires stream).buffer = []
  unwritten : ∀ exchange ∈ state.system.exchanges, ∀ stream,
    exchange.phase.stream? = some stream → exchange.phase.uses stream = false →
      (state.wires stream).buffer = []
  current : ∀ index exchange, state.system.exchanges[index]? = some exchange →
    ∀ stream, exchange.phase.uses stream = true →
      (state.wires stream).Since (state.rounds index)
  delivered : ∀ delivery ∈ state.delivered, delivery.Fresh

namespace Current

theorem new (keepAlive : Bool) : (WireSystem.new keepAlive).Current where
  exclusive := .new keepAlive
  unmade _ _ := rfl
  unwritten := by simp [WireSystem.new, System.new]
  current := by simp [WireSystem.new, System.new]
  delivered := by simp [WireSystem.new]

/-- Server or network change the bytes outside the buffer of one connection. -/
theorem updateWire (current : state.Current) (stream : ℕ) (change : Wire → Wire)
    (buffer : ∀ wire, (change wire).buffer = wire.buffer)
    (since : ∀ wire round, Wire.Since wire round → (change wire).Since round) :
    (state.updateWire stream change).Current := by
  have buffers (other : ℕ) : ((state.updateWire stream change).wires other).buffer =
      (state.wires other).buffer := by
    simp only [WireSystem.updateWire, Function.update_apply]
    split
    · rename_i same
      rw [buffer, same]
    · rfl
  refine ⟨current.exclusive, ?_, ?_, ?_, current.delivered⟩
  · intro other beyond
    rw [buffers]
    exact current.unmade other beyond
  · intro exchange member other holds unused
    rw [buffers]
    exact current.unwritten exchange member other holds unused
  · intro index exchange found other uses
    have old := current.current index exchange found other uses
    simp only [WireSystem.updateWire, Function.update_apply]
    split
    · rename_i same
      exact since _ _ (same ▸ old)
    · exact old

/-- The client changes outside its requests. -/
theorem configure (current : state.Current) {after : System}
    (exclusive : after.Exclusive) (grows : state.system.client.nextStream ≤ after.client.nextStream)
    (same : after.exchanges = state.system.exchanges) :
    Current { state with system := after } where
  exclusive := exclusive
  unmade stream beyond := current.unmade stream (grows.trans beyond)
  unwritten := same ▸ current.unwritten
  current := same ▸ current.current
  delivered := current.delivered

/-- A step of a request that consumes no byte and starts no write. -/
theorem advance (current : state.Current) {after : System} {index : ℕ} {exchange : Exchange}
    (advances : Advances state.system after index exchange)
    (unwritten : ∀ stream, exchange.phase.stream? = some stream →
      exchange.phase.uses stream = false → (state.wires stream).buffer = [])
    (since : ∀ stream, exchange.phase.uses stream = true →
      (state.wires stream).Since (state.rounds index)) :
    Current { state with system := after } where
  exclusive := advances.exclusive
  unmade stream beyond := current.unmade stream (advances.grows.trans beyond)
  unwritten entry member stream holds unused := by
    obtain ⟨position, located⟩ := List.mem_iff_getElem?.mp member
    rcases advances.located_cases located with ⟨-, rfl⟩ | ⟨-, old⟩
    · exact unwritten stream holds unused
    · exact current.unwritten entry (List.mem_of_getElem? old) stream holds unused
  current position entry located stream uses := by
    rcases advances.located_cases located with ⟨rfl, rfl⟩ | ⟨-, old⟩
    · exact since stream uses
    · exact current.current position entry old stream uses
  delivered := current.delivered

/-- The request is written on a connection from which nothing is left to read. -/
theorem write (current : state.Current) {after : System} {index : ℕ} {exchange : Exchange}
    {connection : Connection} {reused : Bool}
    (advances : Advances state.system after index exchange)
    (writes : exchange.phase = .writing connection reused)
    (silent : (state.wires connection.stream).unread = []) :
    (state.proceed after index).Current := by
  have holds : exchange.phase.stream? = some connection.stream := by rw [writes]; rfl
  rw [proceed_of_writing advances.found writes]
  refine ⟨advances.exclusive, ?_, ?_, ?_, current.delivered⟩
  · intro stream beyond
    have old := current.unmade stream (advances.grows.trans beyond)
    dsimp only
    rw [Function.update_apply]
    split
    · rename_i same
      exact same ▸ old
    · exact old
  · intro entry member stream entryHolds unused
    obtain ⟨position, located⟩ := List.mem_iff_getElem?.mp member
    rcases advances.located_cases located with ⟨-, rfl⟩ | ⟨other, old⟩
    · simp [writes, Phase.uses, Phase.stream?] at entryHolds unused
      exact absurd entryHolds unused
    · have distinct := advances.stream_ne holds other located entryHolds
      dsimp only
      rw [Function.update_of_ne distinct]
      exact current.unwritten entry (List.mem_of_getElem? old) stream entryHolds unused
  · intro position entry located stream uses
    rcases advances.located_cases located with ⟨rfl, rfl⟩ | ⟨other, old⟩
    · have streamEq : connection.stream = stream := by simpa [writes, Phase.uses] using uses
      subst streamEq
      dsimp only
      rw [Function.update_self, Function.update_self]
      exact ⟨le_rfl, by simp [silent]⟩
    · have distinct := advances.stream_ne holds other located (Phase.stream?_of_uses uses)
      dsimp only
      rw [Function.update_of_ne distinct, Function.update_of_ne other]
      exact current.current position entry old stream uses

/-- A read completes: the request is answered from the bytes its connection held. -/
theorem read (current : state.Current) {after : System} {index received consumed : ℕ}
    {before exchange : Exchange} {connection : Connection} {reused : Bool} {message : Message}
    (located : state.system.exchanges[index]? = some before)
    (reading : before.phase = .reading connection reused)
    (advances : Advances state.system after index exchange)
    (released : exchange.phase.stream? = none) :
    Current
      { state with
        system := after
        wires := Function.update state.wires connection.stream
          (((state.wires connection.stream).receive received).consume consumed)
        delivered := state.delivered ++
          [⟨index, state.rounds index, message,
            (((state.wires connection.stream).receive received).buffer).take consumed⟩] } := by
  have holds : before.phase.stream? = some connection.stream := by rw [reading]; rfl
  have apart {position : ℕ} {entry : Exchange} {stream : ℕ}
      (entryLocated : after.exchanges[position]? = some entry)
      (entryHolds : entry.phase.stream? = some stream) :=
    advances.apart_of_released current.exclusive located holds released entryLocated entryHolds
  refine ⟨advances.exclusive, ?_, ?_, ?_, ?_⟩
  · intro stream beyond
    have made := current.exclusive.below before (List.mem_of_getElem? located) _ holds
    have distinct : stream ≠ connection.stream := by
      have grows := advances.grows
      dsimp only at beyond
      omega
    dsimp only
    rw [Function.update_of_ne distinct]
    exact current.unmade stream (advances.grows.trans beyond)
  · intro entry member stream entryHolds unused
    obtain ⟨position, entryLocated⟩ := List.mem_iff_getElem?.mp member
    obtain ⟨distinct, old⟩ := apart entryLocated entryHolds
    dsimp only
    rw [Function.update_of_ne distinct]
    exact current.unwritten entry (List.mem_of_getElem? old) stream entryHolds unused
  · intro position entry entryLocated stream uses
    obtain ⟨distinct, old⟩ := apart entryLocated (Phase.stream?_of_uses uses)
    dsimp only
    rw [Function.update_of_ne distinct]
    exact current.current position entry old stream uses
  · intro delivery member
    rcases List.mem_append.mp member with old | new
    · exact current.delivered delivery old
    · rw [List.mem_singleton.mp new]
      -- The message is a prefix of the buffer, and all unread bytes are recent.
      intro byte taken
      have since := current.current index before located connection.stream
        (by simp [reading, Phase.uses])
      have received : byte ∈ ((state.wires connection.stream).receive received).unread :=
        Wire.mem_unread.mpr (.inr (.inr (List.mem_of_mem_take taken)))
      exact since.2 byte (Wire.mem_unread_receive.mp received)

/-- Calls that wait for the previous handler write on no connection in use. -/
theorem unshared_of_idle {system : System} (request : Request) (peek : Peek) (startTime : ℤ)
    (idle : ∀ exchange ∈ system.exchanges, exchange.phase = .idle) :
    system.Unshared (.request request peek startTime) := by
  intro connection _ _ exchange member
  rw [idle exchange member]
  rfl

theorem request {isVerb : String → Bool} {request : Request} {peek : Peek} {startTime : ℤ}
    {after : System} (current : state.Current)
    (idle : ∀ exchange ∈ state.system.exchanges, exchange.phase = .idle)
    (shown : ∀ connection ∈ state.system.client.reusable request,
      (state.wires connection.stream).shows peek = true)
    (quiet : state.Quiet (.request request peek startTime))
    (taken : state.system.step isVerb (.request request peek startTime) = some after) :
    (state.proceed after state.system.exchanges.length).Current := by
  have exclusive := current.exclusive.step
    (unshared_of_idle request peek startTime idle) taken
  simp only [System.step, Option.some.injEq] at taken
  have opening := asyncRequest_opening isVerb state.system.client request peek startTime
  generalize asyncRequest isVerb state.system.client request peek startTime = result
    at taken opening
  obtain ⟨client, added⟩ := result
  dsimp only at taken opening
  have found : after.exchanges[state.system.exchanges.length]? = some added := by
    simp [← taken]
  have advances : Advances state.system after state.system.exchanges.length added := by
    refine ⟨exclusive, ?_, found, ?_⟩
    · rw [← taken]
      exact opening.grows
    · intro other distinct entry located
      rw [← taken] at located
      exact (Roster.getElem?_concat_cases located).resolve_right fun last => distinct last.1
  generalize phaseEq : added.phase = phase at opening
  cases opening with
  | finish settled | resolve settled =>
      rw [proceed_of_not_writing found (by simp [phaseEq])]
      exact current.advance advances (by simp [phaseEq, Phase.stream?])
        (by simp [phaseEq, Phase.uses])
  | reuse connection reusable alive =>
      refine current.write advances phaseEq ?_
      obtain ⟨buffer, inFlight⟩ := quiet connection reusable alive
      have socket := Wire.socket_eq_nil (shown connection reusable) alive
      simp [Wire.unread, buffer, inFlight, socket]

/-- What a callback leaves alone. -/
theorem advances_of_complete {isVerb : String → Bool} {index : ℕ} {completion : Completion}
    {after : System} (current : state.Current)
    (taken : state.system.step isVerb (.complete index completion) = some after) :
    ∃ before exchange, state.system.exchanges[index]? = some before ∧
      Http11.complete isVerb state.system.client before completion =
        some (after.client, exchange) ∧
      Advances state.system after index exchange := by
  have unshared : state.system.Unshared (.complete index completion) := trivial
  have exclusive := current.exclusive.step unshared taken
  simp only [System.step, Option.bind_eq_some_iff, Option.map_eq_some_iff] at taken
  obtain ⟨before, located, ⟨client, exchange⟩, completed, rfl⟩ := taken
  refine ⟨before, exchange, located, completed, exclusive, (complete_turn completed).grows,
    Roster.getElem?_set_self located, ?_⟩
  intro other distinct entry entryLocated
  exact ((Roster.getElem?_set_cases entryLocated).resolve_left fun same => distinct same.1).2

/-- A callback of the request with the given index, other than the end of a read
with a message. -/
theorem complete {isVerb : String → Bool} {index : ℕ} {completion : Completion}
    {after : System} (current : state.Current)
    (quiet : state.Quiet (.complete index completion))
    (taken : state.system.step isVerb (.complete index completion) = some after) :
    (state.proceed after index).Current := by
  obtain ⟨before, exchange, located, completed, advances⟩ := current.advances_of_complete taken
  have turn := complete_turn completed
  have found := advances.found
  have member := List.mem_of_getElem? located
  generalize after.client = client at turn
  generalize beforeEq : before.phase = phase at turn
  generalize phaseEq : exchange.phase = next at turn
  -- A fresh connection has an empty buffer; the rest is what the server has not sent yet.
  have silent (connection : Connection) (sends : before.phase.sends? = some connection.stream)
      (writes : exchange.phase = .writing connection false) :
      (state.wires connection.stream).unread = [] := by
    have succeeded := complete_succeeds completed sends writes
    obtain ⟨socket, inFlight⟩ := quiet before located connection.stream sends succeeded
    have buffer : (state.wires connection.stream).buffer = [] := by
      obtain ⟨holds, unused⟩ := Phase.unused_of_sends sends
      exact current.unwritten before member connection.stream holds unused
    simp [Wire.unread, buffer, inFlight, socket]
  cases turn with
  | finish settled | resolve settled | keep connection =>
      rw [proceed_of_not_writing found (by simp [phaseEq])]
      exact current.advance advances (by simp [phaseEq, Phase.stream?])
        (by simp [phaseEq, Phase.uses])
  | connect tls =>
      rw [proceed_of_not_writing found (by simp [phaseEq])]
      refine current.advance advances ?_ (by simp [phaseEq, Phase.uses])
      intro stream holds _
      have streamEq : state.system.client.nextStream = stream := by
        simpa [phaseEq, Phase.stream?] using holds
      exact current.unmade stream streamEq.le
  | handshake stream =>
      rw [proceed_of_not_writing found (by simp [phaseEq])]
      refine current.advance advances ?_ (by simp [phaseEq, Phase.uses])
      intro other holds _
      have streamEq : stream = other := by simpa [phaseEq, Phase.stream?] using holds
      exact current.unwritten before member other (by simp [beforeEq, Phase.stream?, streamEq])
        (by simp [beforeEq, Phase.uses])
  | send connection =>
      exact current.write advances phaseEq
        (silent connection (by simp [beforeEq, Phase.sends?]) phaseEq)
  | sendTls connection =>
      exact current.write advances phaseEq
        (silent connection (by simp [beforeEq, Phase.sends?]) phaseEq)
  | await connection reused =>
      rw [proceed_of_not_writing found (by simp [phaseEq])]
      refine current.advance advances ?_ ?_
      · intro stream holds unused
        simp [phaseEq, Phase.stream?, Phase.uses] at holds unused
        exact absurd holds unused
      · intro stream uses
        refine current.current index before located stream ?_
        simpa [beforeEq, phaseEq, Phase.uses] using uses

theorem step {isVerb : String → Bool} {parser : Parser} {action : WireAction}
    {next : WireSystem} (current : state.Current) (sequential : state.Sequential action)
    (quiet : state.Quiet action) (taken : state.step isVerb parser action = some next) :
    next.Current := by
  cases action with
  | request request peek startTime =>
      simp only [WireSystem.step] at taken
      split at taken
      · rename_i shown
        obtain ⟨after, made, rfl⟩ := Option.map_eq_some_iff.mp taken
        refine current.request sequential ?_ quiet made
        intro connection reusable
        rw [Option.mem_def] at reusable
        simpa [reusable] using shown
      · cases taken
  | complete index completion =>
      simp only [WireSystem.step] at taken
      obtain ⟨exchange, -, chosen⟩ := Option.bind_eq_some_iff.mp taken
      split at chosen
      · cases chosen
      · obtain ⟨after, made, rfl⟩ := Option.map_eq_some_iff.mp chosen
        exact current.complete quiet made
  | read index received now =>
      simp only [WireSystem.step] at taken
      obtain ⟨before, located, chosen⟩ := Option.bind_eq_some_iff.mp taken
      obtain ⟨connection, reading, parsed⟩ := Option.bind_eq_some_iff.mp chosen
      obtain ⟨⟨message, consumed⟩, -, made⟩ := Option.bind_eq_some_iff.mp parsed
      obtain ⟨after, stepped, rfl⟩ := Option.map_eq_some_iff.mp made
      obtain ⟨same, exchange, sameLocated, completed, advances⟩ :=
        current.advances_of_complete stepped
      have sameEq : before = same := Option.some.inj (located.symm.trans sameLocated)
      subst sameEq
      obtain ⟨reused, phaseEq⟩ := Phase.reading_of_reading? reading
      have turn := complete_turn completed
      rw [phaseEq] at turn
      exact current.read located phaseEq advances turn.released_of_reading
  | serverSends stream bytes =>
      cases taken
      exact current.updateWire stream _ (fun _ => rfl) fun _ _ since => since.serverSends bytes
  | arrive stream count =>
      cases taken
      exact current.updateWire stream _ (fun _ => rfl) fun _ _ since => since.arrive count
  | setKeepAlive keepAlive =>
      have unshared : state.system.Unshared (.setKeepAlive keepAlive) := trivial
      have made : state.system.step isVerb (.setKeepAlive keepAlive) = some _ := rfl
      cases taken
      exact current.configure (current.exclusive.step unshared made) le_rfl rfl
  | setMaxBodyBytes bytes =>
      have unshared : state.system.Unshared (.setMaxBodyBytes bytes) := trivial
      have made : state.system.step isVerb (.setMaxBodyBytes bytes) = some _ := rfl
      cases taken
      exact current.configure (current.exclusive.step unshared made) le_rfl rfl

end Current

/-- When calls are made one after the other and no write is started while bytes of
the server are hidden from the peek, every response is parsed only from bytes that
the server sent after the request was written. -/
theorem reachable_responses_fresh (isVerb : String → Bool) (parser : Parser)
    (keepAlive : Bool) {state : WireSystem}
    (reachable : Reaches (WireSystem.step isVerb parser)
      (fun state action => state.Sequential action ∧ state.Quiet action)
      (.new keepAlive) state) :
    ∀ delivery ∈ state.delivered, delivery.Fresh := by
  have current : state.Current := reachable.invariant Current (.new keepAlive)
    fun _ _ _ current allowed taken => current.step allowed.1 allowed.2 taken
  exact current.delivered

instance (state : WireSystem) : (action : WireAction) → Decidable (state.Sequential action)
  | .request _ _ _ =>
      inferInstanceAs (Decidable (∀ exchange ∈ state.system.exchanges, exchange.phase = .idle))
  | .complete _ _ | .read _ _ _ | .serverSends _ _ | .arrive _ _ | .setKeepAlive _
  | .setMaxBodyBytes _ => .isTrue trivial

instance (state : WireSystem) : (action : WireAction) → Decidable (state.Quiet action)
  | .request request peek _ =>
      inferInstanceAs (Decidable (∀ connection ∈ state.system.client.reusable request,
        cachedConnectionDead peek = false →
          (state.wires connection.stream).buffer = [] ∧
            (state.wires connection.stream).inFlight = []))
  | .complete index completion =>
      inferInstanceAs (Decidable (∀ exchange ∈ state.system.exchanges[index]?,
        ∀ stream ∈ exchange.phase.sends?, completion.result = .success →
          (state.wires stream).socket = [] ∧ (state.wires stream).inFlight = []))
  | .read _ _ _ | .serverSends _ _ | .arrive _ _ | .setKeepAlive _
  | .setMaxBodyBytes _ => .isTrue trivial

end WireSystem

instance (delivery : Delivery) : Decidable delivery.Fresh :=
  inferInstanceAs (Decidable (∀ byte ∈ delivery.bytes, delivery.round ≤ byte.round))

def asciiBytes (text : String) : List UInt8 :=
  text.toList.map fun c => c.toNat.toUInt8

/-- The number of bytes up to the end of the first empty line. -/
def headLength : List UInt8 → Option ℕ
  | 13 :: 10 :: 13 :: 10 :: _ => some 4
  | _ :: rest => (headLength rest).map (· + 1)
  | [] => none

/-- Messages without a body, such as `204` answers. -/
def parseHead : Parser := fun bytes =>
  (headLength bytes).map fun length =>
    (⟨((bytes.drop 9).take 3).foldl (fun value digit => 10 * value + (digit.toNat - 48)) 0,
      11, [], []⟩, length)

namespace WireSystem

/-- One request from the resolver to the end of its write on a fresh connection. -/
def openAndWrite (index : ℕ) : List WireAction :=
  List.replicate 3 (.complete index succeeds)

/-- Two requests one after the other on one connection, each answered in time, the
second answer in two segments. -/
theorem reachable_responses_fresh_reused :
    ∃ state : WireSystem,
      Reaches (WireSystem.step (· = "GET") parseHead)
        (fun state action => state.Sequential action ∧ state.Quiet action) (.new true)
        state ∧
      state.delivered.map (fun delivery => (delivery.index, delivery.message.resultInt)) =
        [(0, 204), (1, 204)] ∧
      ∀ delivery ∈ state.delivered, delivery.Fresh := by
  have evaluated :
      (guardedRun (WireSystem.step (· = "GET") parseHead)
        (fun state action => state.Sequential action ∧ state.Quiet action) (.new true)
        (List.flatten
          [[.request (getRoot "a") .wouldBlock 0], openAndWrite 0,
            [.serverSends 0 (asciiBytes "HTTP/1.1 204 No Content\r\n\r\n"), .arrive 0 27,
              .read 0 27 10],
            [.request (getRoot "a") .wouldBlock 20, .complete 1 succeeds],
            [.serverSends 0 (asciiBytes "HTTP/1.1 204 No Content\r\n\r\n"), .arrive 0 20,
              .arrive 0 7, .read 1 27 30]])).map
        (fun state => state.delivered.map fun delivery =>
          (delivery.index, delivery.message.resultInt)) =
      some [(0, 204), (1, 204)] := by
    decide +kernel
  obtain ⟨state, executes, delivered⟩ := Option.map_eq_some_iff.mp evaluated
  have reaches := reaches_of_guardedRun executes
  exact ⟨state, reaches, delivered, reachable_responses_fresh _ _ true reaches⟩

/-- The server sends a second message right behind the first answer, in one segment.
The read leaves it in the buffer, the peek finds the socket empty, and the next
request gets the left-over message for its answer. -/
theorem stale_response_from_buffer :
    ∃ state : WireSystem,
      Reaches (WireSystem.step (· = "GET") parseHead) Sequential (.new true) state ∧
      ∃ delivery ∈ state.delivered,
        delivery.index = 1 ∧ delivery.message.resultInt = 408 ∧ ¬delivery.Fresh := by
  have evaluated :
      (guardedRun (WireSystem.step (· = "GET") parseHead) Sequential (.new true)
        (List.flatten
          [[.request (getRoot "a") .wouldBlock 0], openAndWrite 0,
            [.serverSends 0
                (asciiBytes "HTTP/1.1 204 No Content\r\n\r\nHTTP/1.1 408 Timeout\r\n\r\n"),
              .arrive 0 51, .read 0 51 10],
            [.request (getRoot "a") .wouldBlock 20, .complete 1 succeeds, .read 1 0 30]])).bind
        (fun state => state.delivered[1]?.map fun delivery =>
          (delivery.index, delivery.message.resultInt, decide delivery.Fresh)) =
      some (1, 408, false) := by
    decide +kernel
  obtain ⟨state, executes, found⟩ := Option.bind_eq_some_iff.mp evaluated
  obtain ⟨delivery, located, seen⟩ := Option.map_eq_some_iff.mp found
  simp only [Prod.mk.injEq, decide_eq_false_iff_not] at seen
  exact ⟨state, reaches_of_guardedRun executes, delivery, List.mem_of_getElem? located, seen⟩

end WireSystem

end Cppload.Http11
