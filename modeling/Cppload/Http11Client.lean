import Cppload.TransitionSystem
import Cppload.PercentEncoding

/-!
# The HTTP/1.1 client

`Http11Client::Impl` drives one request through a tree of asynchronous
callbacks.  Here every callback is a function from the outcome of the operation
it was waiting for to the next operation it starts, and a request records which
operation is outstanding.  Any number of requests can be in progress on one
client, which they share only through the cached keep-alive connection.

Operating system, resolver, TLS library and Beast are the environment: an
operation may complete with any outcome, and whether Beast knows a method name
is the parameter `isVerb`.  The two checks by which Beast throws while a request is
built are part of the model.
-/

namespace Cppload.Http11

/-- The members of `Err` that the client delivers. -/
inductive Err where
  | invalidMethod
  | dnsFailure
  | connectionRefused
  | connectionTimeout
  | readError
  | writeError
  | tlsHandshakeFailed
  | tlsVerifyFailed
  deriving DecidableEq, Repr

/-- `net::Request`.  The path is kept as the bytes that go on the wire. -/
structure Request where
  method : String
  path : List UInt8
  body : List UInt8
  headers : List (String × String)
  host : String
  port : ℕ
  useTls : Bool
  deriving DecidableEq, Repr

/-- `net::Response`; latencies are microseconds. -/
structure Response where
  statusCode : ℕ := 0
  body : List UInt8 := []
  headers : List (String × String) := []
  latency : ℤ := 0
  ec : Option Err := none
  bodyTruncated : Bool := false
  deriving DecidableEq, Repr

/-- What the Beast message `res` holds when a read completes. -/
structure Message where
  resultInt : ℕ
  version : ℕ
  body : List UInt8
  fields : List (String × String)
  deriving DecidableEq, Repr

/-- The error codes that the callbacks tell apart. -/
inductive IoResult where
  | success
  | timedOut
  | endOfStream
  | hostNotFound
  | other
  deriving DecidableEq, Repr

/-- `ReusableConn`: a stream, named by the order of its construction, with the
endpoint it is connected to. -/
structure Connection where
  stream : ℕ
  host : String
  port : ℕ
  tls : Bool
  deriving DecidableEq, Repr

/-- `Http11Client::Impl`.  `nextStream` names the next stream to be made. -/
structure Client where
  keepAlive : Bool
  maxBodyBytes : ℕ
  tlsContext : Bool
  cached : Option Connection
  nextStream : ℕ
  deriving DecidableEq, Repr

/-- `core::kDefaultMaxBodyBytes`. -/
def kDefaultMaxBodyBytes : ℕ :=
  100 * 1024 * 1024

/-- The constructor, which always creates a TLS context. -/
def Client.new (keepAlive : Bool) : Client where
  keepAlive := keepAlive
  maxBodyBytes := kDefaultMaxBodyBytes
  tlsContext := true
  cached := none
  nextStream := 0

/-- `method_is_idempotent`. -/
def methodIsIdempotent (method : String) : Bool :=
  method = "GET" || method = "HEAD" || method = "PUT" ||
    method = "DELETE" || method = "OPTIONS" || method = "TRACE"

/-- `host_is_ip_literal`. -/
def hostIsIpLiteral (host : String) : Bool :=
  if host.toList.contains ':' then true
  else if host.toList.isEmpty then false
  else host.toList.all fun c => c = '.' || c.isDigit

/-- The unreserved bytes of `url_encode_path` besides letters and digits. -/
def unreservedPunctuation : List UInt8 :=
  "/@!$&'()*+,;=:?._-".toList.map fun c => c.toNat.toUInt8

/-- `url_encode_path`. -/
def urlEncodePath (raw : List UInt8) : List UInt8 :=
  raw.flatMap fun byte =>
    if Percent.isAlnum byte || unreservedPunctuation.contains byte then [byte]
    else [37, Percent.hexDigit (byte >>> 4), Percent.hexDigit (byte &&& 15)]

/-- `format_host_header`. -/
def formatHostHeader (host : String) (port : ℕ) (useTls : Bool) : String :=
  let name := if host.toList.contains ':' then "[" ++ host ++ "]" else host
  let defaultPort := if useTls then 443 else 80
  if port = defaultPort then name else name ++ ":" ++ toString port

/-- What `build_request` puts into the Beast message; `fields` are set in this
order. -/
structure RequestMessage where
  method : String
  target : List UInt8
  fields : List (String × String)
  body : List UInt8
  deriving DecidableEq, Repr

/-- The fields that `build_request` sets; `prepare_payload`, which is called for a
body that is not empty, sets the length. -/
def Request.fields (request : Request) : List (String × String) :=
  [("Host", formatHostHeader request.host request.port request.useTls),
    ("User-Agent", "volley/1.1.0")] ++
    (if request.body = [] then [] else [("Content-Length", toString request.body.length)]) ++
    request.headers

/-- Beast stores the sizes of a name and of a value, each with two more characters,
in 16 bits. -/
def fits (field : String × String) : Bool :=
  field.1.utf8ByteSize + 2 ≤ 65535 && field.2.utf8ByteSize + 2 ≤ 65535

/-- Beast throws while the request is built: `prepare_payload` for a body of a TRACE
request, and `set` for a name or a value that is too long. -/
def Request.throws (request : Request) : Bool :=
  (request.method = "TRACE" && request.body ≠ []) || !request.fields.all fits

/-- Why there is no message: the error given to the handler, or an exception. -/
inductive BuildFailure where
  | refused (ec : Err)
  | threw
  deriving DecidableEq, Repr

/-- `build_request`.  A method that Beast does not know gives no message. -/
def buildRequest (isVerb : String → Bool) (request : Request) :
    Except BuildFailure RequestMessage :=
  if isVerb request.method then
    if request.throws then .error .threw
    else
      .ok
        { method := request.method
          target := urlEncodePath
            (request.path.filter fun byte => byte ≠ 13 && byte ≠ 10)
          fields := request.fields
          body := request.body }
  else
    .error (.refused .invalidMethod)

/-- The operation whose completion a request is waiting for.  A write or a read
names its connection and whether that is the cached one. -/
inductive Phase where
  | resolving
  | connecting (stream : ℕ) (tls : Bool)
  | handshaking (stream : ℕ)
  | writing (connection : Connection) (reused : Bool)
  | reading (connection : Connection) (reused : Bool)
  | idle
  deriving DecidableEq, Repr

/-- What an observer sees of a request: writes that were started, attempts on
the cached connection that failed, calls of the handler, and an exception that
leaves the client. -/
inductive Event where
  | wrote (connection : Connection) (reused : Bool)
  | abandoned (connection : Connection)
  | handled (response : Response)
  | threw
  deriving DecidableEq, Repr

/-- One request in progress. -/
structure Exchange where
  request : Request
  startTime : ℤ
  phase : Phase
  log : List Event
  deriving DecidableEq, Repr

namespace Exchange

/-- `handler(response->ec, *response)`; the callback then returns. -/
def handle (exchange : Exchange) (response : Response) : Exchange :=
  { exchange with
    phase := .idle
    log := exchange.log ++ [.handled response] }

/-- `http::async_write` on a connection. -/
def write (exchange : Exchange) (connection : Connection) (reused : Bool) : Exchange :=
  { exchange with
    phase := .writing connection reused
    log := exchange.log ++ [.wrote connection reused] }

/-- Give up the attempt on the cached connection. -/
def abandon (exchange : Exchange) (connection : Connection) : Exchange :=
  { exchange with log := exchange.log ++ [.abandoned connection] }

/-- `build_request` failed. -/
def fail (exchange : Exchange) : BuildFailure → Exchange
  | .refused ec => exchange.handle { ec := some ec }
  | .threw => { exchange with phase := .idle, log := exchange.log ++ [.threw] }

end Exchange

/-- `headers[name] = value`. -/
def setHeader (headers : List (String × String)) (field : String × String) :
    List (String × String) :=
  headers.filter (fun header => header.1 ≠ field.1) ++ [field]

/-- `copy_body_capped` and the copies around it in `populate_response`. -/
def copyMessage (cap : ℕ) (message : Message) (response : Response) : Response :=
  { response with
    statusCode := message.resultInt % 65536
    body := if cap < message.body.length then message.body.take cap else message.body
    bodyTruncated := decide (cap < message.body.length)
    headers := message.fields.foldl setHeader response.headers }

/-- `populate_response`: end of stream counts as an answer. -/
def populateResponse (client : Client) (message : Message) (result : IoResult)
    (startTime now : ℤ) : Response :=
  let cap := if client.maxBodyBytes = 0 then kDefaultMaxBodyBytes else client.maxBodyBytes
  let timed : Response := { latency := (now - startTime).tdiv 1000 }
  match result with
  | .success | .endOfStream => copyMessage cap message timed
  | _ => { timed with ec := some .readError }

/-- `drop_cached`. -/
def Client.dropCached (client : Client) (connection : Connection) : Client :=
  if client.cached = some connection then { client with cached := none } else client

/-- `cache_connection`. -/
def Client.cacheConnection (client : Client) (connection : Connection) : Client :=
  { client with cached := some connection }

/-- `request_fresh`: everything up to `async_resolve`. -/
def requestFresh (isVerb : String → Bool) (client : Client) (exchange : Exchange) :
    Client × Exchange :=
  match buildRequest isVerb exchange.request with
  | .error failure => (client, exchange.fail failure)
  | .ok _ => (client, { exchange with phase := .resolving })

/-- The non-blocking one-byte receive of `cached_connection_dead`. -/
inductive Peek where
  | setupFailed
  | wouldBlock
  | tryAgain
  | failed
  | received
  deriving DecidableEq, Repr

/-- `cached_connection_dead`. -/
def cachedConnectionDead : Peek → Bool
  | .wouldBlock | .tryAgain => false
  | .setupFailed | .failed | .received => true

/-- Start a write on the cached connection. -/
def writeReadCached (client : Client) (exchange : Exchange) (connection : Connection) :
    Client × Exchange :=
  (client, exchange.write connection true)

/-- `write_read_cached_tcp`, on the plain stream. -/
def writeReadCachedTcp : Client → Exchange → Connection → Client × Exchange :=
  writeReadCached

/-- `write_read_cached_tls`, on the TLS stream. -/
def writeReadCachedTls : Client → Exchange → Connection → Client × Exchange :=
  writeReadCached

/-- `request_on_cached`. -/
def requestOnCached (isVerb : String → Bool) (client : Client) (exchange : Exchange)
    (connection : Connection) (peek : Peek) : Client × Exchange :=
  match buildRequest isVerb exchange.request with
  | .error failure => (client, exchange.fail failure)
  | .ok _ =>
      if cachedConnectionDead peek then
        requestFresh isVerb (client.dropCached connection) exchange
      else if connection.tls then
        writeReadCachedTls client exchange connection
      else
        writeReadCachedTcp client exchange connection

/-- The test by which `async_request` reuses the cached connection. -/
def Client.reusable (client : Client) (request : Request) : Option Connection :=
  client.cached.filter fun connection =>
    client.keepAlive && connection.host = request.host &&
      connection.port = request.port && connection.tls = request.useTls

/-- `async_request`. -/
def asyncRequest (isVerb : String → Bool) (client : Client) (request : Request)
    (peek : Peek) (startTime : ℤ) : Client × Exchange :=
  let exchange : Exchange :=
    { request := request, startTime := startTime, phase := .idle, log := [] }
  if request.useTls && !client.tlsContext then
    (client, exchange.handle { ec := some .tlsVerifyFailed })
  else
    match client.reusable request with
    | some connection => requestOnCached isVerb client exchange connection peek
    | none => requestFresh isVerb client exchange

/-- How an operation completed: its error code, what a read left in the
message, whether the TLS library accepted the server name, and the clock. -/
structure Completion where
  result : IoResult
  message : Message
  sniAccepted : Bool
  now : ℤ
  deriving DecidableEq, Repr

/-- Start `async_connect` on a new stream. -/
def connect (tls : Bool) (client : Client) (exchange : Exchange) : Client × Exchange :=
  ({ client with nextStream := client.nextStream + 1 },
    { exchange with phase := .connecting client.nextStream tls })

/-- `connect_tcp`. -/
def connectTcp : Client → Exchange → Client × Exchange :=
  connect false

/-- `connect_tls`. -/
def connectTls : Client → Exchange → Client × Exchange :=
  connect true

/-- The callback of `async_resolve`. -/
def onResolve (client : Client) (exchange : Exchange) (completion : Completion) :
    Client × Exchange :=
  match completion.result with
  | .success =>
      if exchange.request.useTls then connectTls client exchange
      else connectTcp client exchange
  | .hostNotFound => (client, exchange.handle { ec := some .dnsFailure })
  | _ => (client, exchange.handle { ec := some .connectionRefused })

/-- Start a write on a fresh connection. -/
def sendOn (tls : Bool) (client : Client) (exchange : Exchange) (stream : ℕ) :
    Client × Exchange :=
  let connection : Connection :=
    { stream := stream, host := exchange.request.host,
      port := exchange.request.port, tls := tls }
  (client, exchange.write connection false)

/-- `send_and_receive`. -/
def sendAndReceive : Client → Exchange → ℕ → Client × Exchange :=
  sendOn false

/-- `send_and_receive_tls`. -/
def sendAndReceiveTls : Client → Exchange → ℕ → Client × Exchange :=
  sendOn true

/-- The callback of `async_connect` in `connect_tcp`. -/
def onConnectTcp (client : Client) (exchange : Exchange) (stream : ℕ)
    (completion : Completion) : Client × Exchange :=
  match completion.result with
  | .success => sendAndReceive client exchange stream
  | .timedOut => (client, exchange.handle { ec := some .connectionTimeout })
  | _ => (client, exchange.handle { ec := some .connectionRefused })

/-- The callback of `async_connect` in `connect_tls`; a server name that is no
IP literal has to be accepted before the handshake starts. -/
def onConnectTls (client : Client) (exchange : Exchange) (stream : ℕ)
    (completion : Completion) : Client × Exchange :=
  match completion.result with
  | .success =>
      if !hostIsIpLiteral exchange.request.host && !completion.sniAccepted then
        (client, exchange.handle { ec := some .tlsHandshakeFailed })
      else
        (client, { exchange with phase := .handshaking stream })
  | .timedOut => (client, exchange.handle { ec := some .connectionTimeout })
  | _ => (client, exchange.handle { ec := some .connectionRefused })

/-- The callback of `async_handshake`. -/
def onHandshake (client : Client) (exchange : Exchange) (stream : ℕ)
    (completion : Completion) : Client × Exchange :=
  match completion.result with
  | .success => sendAndReceiveTls client exchange stream
  | _ => (client, exchange.handle { ec := some .tlsHandshakeFailed })

/-- The callback of a write on the cached connection. -/
def onWriteCached (isVerb : String → Bool) (client : Client) (exchange : Exchange)
    (connection : Connection) (completion : Completion) : Client × Exchange :=
  match completion.result with
  | .success => (client, { exchange with phase := .reading connection true })
  | _ =>
      let dropped := client.dropCached connection
      if methodIsIdempotent exchange.request.method then
        requestFresh isVerb dropped (exchange.abandon connection)
      else
        (dropped, exchange.handle { ec := some .writeError })

/-- The callback of a read on the cached connection.  A failed read without a
status is retried once on a fresh connection, but only for idempotent methods
and not after a timeout. -/
def onReadCached (isVerb : String → Bool) (client : Client) (exchange : Exchange)
    (connection : Connection) (completion : Completion) : Client × Exchange :=
  let response := populateResponse client completion.message completion.result
    exchange.startTime completion.now
  match completion.result with
  | .success => (client, exchange.handle response)
  | failure =>
      let dropped := client.dropCached connection
      if failure ≠ .timedOut && response.statusCode = 0 &&
          methodIsIdempotent exchange.request.method then
        requestFresh isVerb dropped (exchange.abandon connection)
      else
        (dropped, exchange.handle response)

/-- The callback of a write on a fresh connection. -/
def onWriteFresh (client : Client) (exchange : Exchange) (connection : Connection)
    (completion : Completion) : Client × Exchange :=
  match completion.result with
  | .success => (client, { exchange with phase := .reading connection false })
  | _ => (client, exchange.handle { ec := some .writeError })

/-- The callback of a read on a fresh connection, which caches the connection
after a clean read. -/
def onReadFresh (client : Client) (exchange : Exchange) (connection : Connection)
    (completion : Completion) : Client × Exchange :=
  let response := populateResponse client completion.message completion.result
    exchange.startTime completion.now
  let kept :=
    if client.keepAlive && completion.result = .success then
      client.cacheConnection connection
    else client
  (kept, exchange.handle response)

/-- Run the callback of the outstanding operation. -/
def complete (isVerb : String → Bool) (client : Client) (exchange : Exchange)
    (completion : Completion) : Option (Client × Exchange) :=
  match exchange.phase with
  | .resolving => some (onResolve client exchange completion)
  | .connecting stream false => some (onConnectTcp client exchange stream completion)
  | .connecting stream true => some (onConnectTls client exchange stream completion)
  | .handshaking stream => some (onHandshake client exchange stream completion)
  | .writing connection true =>
      some (onWriteCached isVerb client exchange connection completion)
  | .writing connection false =>
      some (onWriteFresh client exchange connection completion)
  | .reading connection true =>
      some (onReadCached isVerb client exchange connection completion)
  | .reading connection false =>
      some (onReadFresh client exchange connection completion)
  | .idle => none

/-- A client with all requests ever issued on it. -/
structure System where
  client : Client
  exchanges : List Exchange

/-- Calls on the client and completions of outstanding operations. -/
inductive Action where
  | request (request : Request) (peek : Peek) (startTime : ℤ)
  | complete (index : ℕ) (completion : Completion)
  | setKeepAlive (keepAlive : Bool)
  | setMaxBodyBytes (bytes : ℕ)

/-- A client on which nothing was requested yet. -/
def System.new (keepAlive : Bool) : System where
  client := .new keepAlive
  exchanges := []

/-- One call or one completion. -/
def System.step (isVerb : String → Bool) (system : System) : Action → Option System
  | .request request peek startTime =>
      let result := asyncRequest isVerb system.client request peek startTime
      some
        { client := result.1
          exchanges := system.exchanges ++ [result.2] }
  | .complete index completion =>
      (system.exchanges[index]?).bind fun exchange =>
        (complete isVerb system.client exchange completion).map fun result =>
          { client := result.1
            exchanges := system.exchanges.set index result.2 }
  | .setKeepAlive keepAlive =>
      some
        { system with
          client :=
            { system.client with
              keepAlive := keepAlive
              cached := if keepAlive then system.client.cached else none } }
  | .setMaxBodyBytes bytes =>
      some
        { system with
          client :=
            { system.client with
              maxBodyBytes := if 0 < bytes then bytes else kDefaultMaxBodyBytes } }

end Cppload.Http11
