import Cppload.Http11Client

/-!
# The clients for raw TCP and for WebSockets

`TcpRawClient` and `WsClient` make one connection for each request and go through a
fixed sequence of asynchronous operations; the first that fails ends the request.
The results of the operations are the environment's choice, and a result that is not
reached is not looked at.
-/

namespace Cppload.Net

/-- The members of `Err` that the two clients deliver. -/
inductive RawErr where
  | tlsVerifyFailed
  | dnsFailure
  | connectionRefused
  | connectionTimeout
  | tlsHandshakeFailed
  | protocolViolation
  | writeError
  | readError
  | timeout
  deriving DecidableEq, Repr

/-- The error codes that the callbacks tell apart.  `timedOut` is the one of the
socket, `streamTimeout` the one of the expired stream. -/
inductive RawResult where
  | success
  | hostNotFound
  | timedOut
  | streamTimeout
  | other
  deriving DecidableEq, Repr

/-- The fields of `net::Response` that the two clients set; latencies are
microseconds. -/
structure RawResponse where
  statusCode : ℕ := 0
  body : List UInt8 := []
  latency : ℤ := 0
  ec : Option RawErr := none
  deriving DecidableEq, Repr

/-- What happens to one request: the results of its operations, whether the server
name could be set, the bytes that were read, and the clock at the beginning and at
the end, in nanoseconds. -/
structure Transport where
  resolve : RawResult
  connect : RawResult
  serverName : Bool
  tlsHandshake : RawResult
  wsHandshake : RawResult
  write : RawResult
  read : RawResult
  received : List UInt8
  startTime : ℤ
  endTime : ℤ
  deriving DecidableEq, Repr

namespace Transport

variable (transport : Transport)

/-- The latency that `populate_response` sets. -/
def latency : ℤ :=
  (transport.endTime - transport.startTime).tdiv 1000

/-- `async_resolve` and `async_connect`, with the check for a TLS context before
them. -/
def connected (tlsContext : Bool) (request : Http11.Request) : Except RawErr Unit :=
  if request.useTls && !tlsContext then .error .tlsVerifyFailed
  else if transport.resolve ≠ .success then
    .error (if transport.resolve = .hostNotFound then .dnsFailure else .connectionRefused)
  else if transport.connect ≠ .success then
    .error (if transport.connect = .timedOut then .connectionTimeout else .connectionRefused)
  else .ok ()

/-- The TLS handshake of `connect_tls` and `connect_wss`. -/
def secured (request : Http11.Request) : Except RawErr Unit :=
  if !request.useTls then .ok ()
  else if !Http11.hostIsIpLiteral request.host && !transport.serverName then
    .error .tlsHandshakeFailed
  else if transport.tlsHandshake ≠ .success then .error .tlsHandshakeFailed
  else .ok ()

/-- The handshake of the WebSocket. -/
def upgraded : Except RawErr Unit :=
  if transport.wsHandshake ≠ .success then .error .protocolViolation else .ok ()

/-- `async_write`. -/
def written : Except RawErr Unit :=
  if transport.write ≠ .success then .error .writeError else .ok ()

end Transport

/-- The handler gets the response of the read, or the error of the operation before it
that failed. -/
def RawResponse.ofOperations (operations : Except RawErr Unit) (response : RawResponse) :
    RawResponse :=
  match operations with
  | .error error => { ec := some error }
  | .ok () => response

namespace TcpRawClient

def populateResponse (transport : Transport) : RawResponse :=
  if transport.read = .success then
    { latency := transport.latency, body := transport.received, statusCode := 1 }
  else
    { latency := transport.latency
      ec := some (if transport.read = .streamTimeout then .timeout else .readError) }

/-- What `async_request` delivers. -/
def asyncRequest (tlsContext : Bool) (request : Http11.Request) (transport : Transport) :
    RawResponse :=
  .ofOperations (do
    transport.connected tlsContext request
    transport.secured request
    transport.written) (populateResponse transport)

end TcpRawClient

namespace WsClient

def populateResponse (transport : Transport) : RawResponse :=
  if transport.read = .success then
    { latency := transport.latency, body := transport.received, statusCode := 1 }
  else { latency := transport.latency, ec := some .readError }

/-- What `async_request` delivers. -/
def asyncRequest (tlsContext : Bool) (request : Http11.Request) (transport : Transport) :
    RawResponse :=
  .ofOperations (do
    transport.connected tlsContext request
    transport.secured request
    transport.upgraded
    transport.written) (populateResponse transport)

end WsClient

/-- A response without an error has the status code 1. -/
def RawResponse.Marked (response : RawResponse) : Prop :=
  response.ec = none → response.statusCode = 1

theorem RawResponse.Marked.ofOperations {response : RawResponse} (marked : response.Marked)
    (operations : Except RawErr Unit) : (RawResponse.ofOperations operations response).Marked := by
  cases operations with
  | error error => intro failed; cases failed
  | ok => exact marked

theorem TcpRawClient.asyncRequest_marked (tlsContext : Bool) (request : Http11.Request)
    (transport : Transport) :
    (TcpRawClient.asyncRequest tlsContext request transport).Marked := by
  apply RawResponse.Marked.ofOperations
  unfold populateResponse
  split
  · exact fun _ => rfl
  · intro failed
    cases failed

theorem WsClient.asyncRequest_marked (tlsContext : Bool) (request : Http11.Request)
    (transport : Transport) :
    (WsClient.asyncRequest tlsContext request transport).Marked := by
  apply RawResponse.Marked.ofOperations
  unfold populateResponse
  split
  · exact fun _ => rfl
  · intro failed
    cases failed

end Cppload.Net
