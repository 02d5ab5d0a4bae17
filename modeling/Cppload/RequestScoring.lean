import Cppload.Assertions
import Cppload.RawClients
import Cppload.Http11ClientConnections
import Cppload.MetricsCollectorTotals

/-!
# How the engine scores a request

The completion handler of a worker turns what the protocol client delivers into a
status code and hands it to `record_request`, which counts a success exactly for the
codes 200 to 399.  Only the HTTP client delivers codes of that kind; the other two
mark a successful exchange by the code 1.
-/

namespace Cppload.Scenario

open Transition

/-- The clients that `ProtocolFactory` has registered, as `http1.1`, `tcp_raw` and
`ws`. -/
inductive Protocol where
  | http11
  | tcpRaw
  | ws
  deriving DecidableEq, Repr

/-- What the completion handler reads of the arguments it is called with. -/
structure Answer where
  failed : Bool
  statusCode : ℕ
  latency : ℤ
  bodySize : ℕ
  deriving DecidableEq, Repr

def Answer.ofHttp (response : Http11.Response) : Answer where
  failed := response.ec.isSome
  statusCode := response.statusCode
  latency := response.latency
  bodySize := response.body.length

def Answer.ofRaw (response : Net.RawResponse) : Answer where
  failed := response.ec.isSome
  statusCode := response.statusCode
  latency := response.latency
  bodySize := response.body.length

/-- What a client can deliver for a request: the HTTP client in any state it can
reach, the other two for any course of their operations. -/
inductive Delivers : Protocol → Answer → Prop
  | http11 {isVerb : String → Bool} {keepAlive : Bool} {system : Http11.System}
      (reachable : Reaches (Http11.System.step isVerb) Unrestricted (.new keepAlive) system)
      {exchange : Http11.Exchange} (member : exchange ∈ system.exchanges)
      {response : Http11.Response} (handled : .handled response ∈ exchange.log) :
      Delivers .http11 (.ofHttp response)
  | tcpRaw (tlsContext : Bool) (request : Http11.Request) (transport : Net.Transport) :
      Delivers .tcpRaw (.ofRaw (Net.TcpRawClient.asyncRequest tlsContext request transport))
  | ws (tlsContext : Bool) (request : Http11.Request) (transport : Net.Transport) :
      Delivers .ws (.ofRaw (Net.WsClient.asyncRequest tlsContext request transport))

namespace Answer

def meets (answer : Answer) (assertions : List Text) : Bool :=
  evaluateAssertions assertions answer.statusCode answer.latency

/-- The code that the completion handler computes. -/
def code (answer : Answer) (assertions : List Text) : ℕ :=
  let code := if answer.failed then 0 else answer.statusCode
  if code ≠ 0 ∧ answer.meets assertions = false then 0 else code

/-- The arguments with which the completion handler calls `record_request`. -/
structure RecordedAs (answer : Answer) (assertions : List Text) (requestBodySize : ℕ)
    (sample : Metrics.Sample) : Prop where
  statusCode : sample.statusCode = answer.code assertions
  latency : sample.latency = answer.latency
  bytesSent : sample.bytesSent = requestBodySize
  bytesReceived : sample.bytesReceived = answer.bodySize

/-- The exchange was successful: no error, and for HTTP a status of 200 to 399. -/
def Succeeded (answer : Answer) (protocol : Protocol) : Prop :=
  answer.failed = false ∧
    (protocol = .http11 → 200 ≤ answer.statusCode ∧ answer.statusCode < 400)

theorem code_of_meets {answer : Answer} {assertions : List Text}
    (holds : answer.meets assertions = true) :
    answer.code assertions = if answer.failed then 0 else answer.statusCode := by
  simp [code, holds]

end Answer

/-- What one call of `record_request` adds to the two counters. -/
theorem amounts_of_sample (sample : Metrics.Sample) :
    (sample.amount .successfulRequests = 1 ∧ sample.amount .failedRequests = 0 ↔
      200 ≤ sample.statusCode ∧ sample.statusCode < 400) ∧
    (sample.amount .successfulRequests = 0 ∧ sample.amount .failedRequests = 1 ↔
      ¬(200 ≤ sample.statusCode ∧ sample.statusCode < 400)) := by
  unfold Metrics.Sample.amount Metrics.Sample.fetchAdds Metrics.Sample.outcome
  split <;> simp_all

/-- The raw clients mark a response without an error by the code 1. -/
theorem Delivers.statusCode_eq_one {protocol : Protocol} {answer : Answer}
    (delivers : Delivers protocol answer) (raw : protocol ≠ .http11)
    (delivered : answer.failed = false) : answer.statusCode = 1 := by
  cases delivers with
  | http11 => exact absurd rfl raw
  | tcpRaw tlsContext request transport =>
      exact Net.TcpRawClient.asyncRequest_marked tlsContext request transport
        (by simpa [Answer.ofRaw] using delivered)
  | ws tlsContext request transport =>
      exact Net.WsClient.asyncRequest_marked tlsContext request transport
        (by simpa [Answer.ofRaw] using delivered)

/-- For a request whose assertions hold, `record_request` counts a success if the
exchange was successful and a failure otherwise, exactly if the protocol is HTTP or
the client has delivered an error. -/
theorem Delivers.counted_iff {protocol : Protocol} {answer : Answer}
    (delivers : Delivers protocol answer) {assertions : List Text}
    (holds : answer.meets assertions = true) {requestBodySize : ℕ} {sample : Metrics.Sample}
    (recorded : answer.RecordedAs assertions requestBodySize sample) :
    ((answer.Succeeded protocol →
        sample.amount .successfulRequests = 1 ∧ sample.amount .failedRequests = 0) ∧
      (¬ answer.Succeeded protocol →
        sample.amount .successfulRequests = 0 ∧ sample.amount .failedRequests = 1)) ↔
    protocol = .http11 ∨ answer.failed = true := by
  have code := recorded.statusCode.trans (Answer.code_of_meets holds)
  rw [(amounts_of_sample sample).1, (amounts_of_sample sample).2, code]
  unfold Answer.Succeeded
  cases failed : answer.failed with
  | true => simp
  | false =>
      by_cases http : protocol = .http11
      · simp [http]
      · have marked := delivers.statusCode_eq_one http failed
        simp [http, marked]

/-- A request over HTTP that is answered by 200, with an assertion on the status. -/
theorem Delivers.counted_iff_http :
    ∃ (answer : Answer) (sample : Metrics.Sample),
      Delivers .http11 answer ∧
      answer.meets ["status_code == 200".toList] = true ∧
      answer.RecordedAs ["status_code == 200".toList] 0 sample ∧
      sample.amount .successfulRequests = 1 ∧ sample.amount .failedRequests = 0 := by
  have evaluated :
      (run (Http11.System.step (· = "GET")) (.new true)
        (.request (Http11.getRoot "a") .wouldBlock 0 :: Http11.freshExchange 0)).bind
        (fun system => system.exchanges[0]?.bind fun exchange => exchange.log.getLast?) =
      some (.handled { statusCode := 200, latency := 5 }) := by
    decide +kernel
  obtain ⟨system, executes, found⟩ := Option.bind_eq_some_iff.mp evaluated
  obtain ⟨exchange, located, handled⟩ := Option.bind_eq_some_iff.mp found
  have delivers := Delivers.http11 (reaches_of_run executes) (List.mem_of_getElem? located)
    (List.mem_of_getLast? handled)
  have holds : (Answer.ofHttp { statusCode := 200, latency := 5 }).meets
      ["status_code == 200".toList] = true := by
    decide +kernel
  have recorded : (Answer.ofHttp { statusCode := 200, latency := 5 }).RecordedAs
      ["status_code == 200".toList] 0
      ⟨200, 5, 0, 0, by decide, by decide, by decide, by decide, by decide⟩ :=
    ⟨by decide +kernel, rfl, rfl, rfl⟩
  have counted := (delivers.counted_iff holds recorded).mpr (.inl rfl)
  exact ⟨_, _, delivers, holds, recorded, counted.1 (by simp [Answer.Succeeded, Answer.ofHttp])⟩

/-- A raw exchange in which everything goes well. -/
def smoothTransport : Net.Transport where
  resolve := .success
  connect := .success
  serverName := true
  tlsHandshake := .success
  wsHandshake := .success
  write := .success
  read := .success
  received := [112, 111, 110, 103]
  startTime := 0
  endTime := 5000

/-- A successful exchange over raw TCP is counted as a failure, and so is one over a
WebSocket. -/
theorem raw_success_counted_as_failure :
    ∃ sample : Metrics.Sample,
      (Delivers .tcpRaw ⟨false, 1, 5, 4⟩ ∧ Delivers .ws ⟨false, 1, 5, 4⟩) ∧
      Answer.RecordedAs ⟨false, 1, 5, 4⟩ [] 0 sample ∧
      sample.amount .successfulRequests = 0 ∧ sample.amount .failedRequests = 1 := by
  have tcp := Delivers.tcpRaw true (Http11.getRoot "a") smoothTransport
  have webSocket := Delivers.ws true (Http11.getRoot "a") smoothTransport
  exact ⟨⟨1, 5, 0, 4, by decide, by decide, by decide, by decide, by decide⟩,
    ⟨tcp, webSocket⟩, ⟨rfl, rfl, rfl, rfl⟩, by decide, by decide⟩

end Cppload.Scenario
