import Cppload.VaultClient

/-!
# What the vault client makes of the network

One attempt of `do_request` goes through the resolver, the connection, with TLS the
handshake, the write and the read; the response is read into an object that is made with
the status 200.  A connection that the server closes before it has answered ends the read
with `end_of_stream`, which the client does not take for an error, so that the object is
handed on as it was made.
-/

namespace Cppload.Vault

inductive ConnectResult where
  | connected
  | timeout
  | failed
  deriving DecidableEq, Repr

inductive ReadResult where
  | response (response : VaultResponse)
  | endOfStream
  | failed
  deriving DecidableEq, Repr

/-- What becomes of one attempt, as far as it comes. -/
structure Exchange where
  resolved : Bool
  nameSet : Bool
  connect : ConnectResult
  handshake : Bool
  written : Bool
  read : ReadResult
  deriving DecidableEq, Repr

/-- `http::response` as it is made. -/
def VaultResponse.initial : VaultResponse where
  status := 200
  body := ""

namespace Exchange

variable (exchange : Exchange)

/-- The write and the read, which are the same with and without TLS. -/
def writeAndRead : Except VaultError VaultResponse :=
  if exchange.written = false then .error .writeError
  else
    match exchange.read with
    | .response response => .ok response
    | .endOfStream => .ok .initial
    | .failed => .error .readError

def doRequestOnce (useTls : Bool) : Except VaultError VaultResponse :=
  if exchange.resolved = false then .error .dnsFailure
  else if useTls then
    if exchange.nameSet = false then .error .tlsHandshakeFailed
    else
      match exchange.connect with
      | .timeout => .error .connectionTimeout
      | .failed => .error .connectionRefused
      | .connected =>
          if exchange.handshake = false then .error .tlsHandshakeFailed
          else exchange.writeAndRead
  else
    match exchange.connect with
    | .timeout => .error .connectionTimeout
    | .failed => .error .connectionRefused
    | .connected => exchange.writeAndRead

/-- The request is written. -/
structure Delivered (useTls : Bool) : Prop where
  resolved : exchange.resolved = true
  connected : exchange.connect = .connected
  secured : useTls = true → exchange.nameSet = true ∧ exchange.handshake = true
  written : exchange.written = true

/-- An attempt gives a response exactly when the request is written and the read does not
fail; after a connection that was closed without an answer it is the initial one. -/
theorem doRequestOnce_eq_ok_iff {useTls : Bool} {response : VaultResponse} :
    exchange.doRequestOnce useTls = .ok response ↔
      exchange.Delivered useTls ∧
        (exchange.read = .response response ∨
          exchange.read = .endOfStream ∧ response = .initial) := by
  obtain ⟨resolved, nameSet, connect, handshake, written, read⟩ := exchange
  constructor
  · intro answered
    simp only [doRequestOnce, writeAndRead] at answered
    cases resolved
    · cases answered
    cases connect
    all_goals
      cases useTls <;> cases nameSet <;> cases handshake <;> cases written <;> cases read <;>
        cases answered
    all_goals exact ⟨⟨rfl, rfl, by simp, rfl⟩, by simp⟩
  · rintro ⟨⟨resolvedEq, connectedEq, secured, writtenEq⟩, readEq⟩
    dsimp only at resolvedEq connectedEq writtenEq readEq secured
    subst resolvedEq connectedEq writtenEq
    rcases readEq with rfl | ⟨rfl, rfl⟩
    all_goals
      cases useTls
      · rfl
      · obtain ⟨rfl, rfl⟩ := secured rfl
        rfl

end Exchange

/-! ### The attempts -/

/-- The attempt is answered with `too_many_requests`. -/
def IsThrottled (attempt : Except VaultError VaultResponse) : Prop :=
  ∃ response, attempt = .ok response ∧ response.status = 429

theorem retryFrom_of_not_throttled {once : ℕ → Except VaultError VaultResponse} {left : ℕ}
    (answered : ¬IsThrottled (once (kMaxAttempts - (left + 1)))) :
    retryFrom once (left + 1) = ⟨once (kMaxAttempts - (left + 1)), 1, 0⟩ := by
  rw [retryFrom]
  cases attempted : once (kMaxAttempts - (left + 1)) with
  | error error => rfl
  | ok response =>
      have other : response.status ≠ 429 := fun same => answered ⟨response, attempted, same⟩
      simp only [if_pos other]

theorem retryFrom_of_throttled {once : ℕ → Except VaultError VaultResponse} {left : ℕ}
    (throttled : IsThrottled (once (kMaxAttempts - (left + 1)))) :
    retryFrom once (left + 1) =
      ⟨(retryFrom once left).result, (retryFrom once left).attempts + 1,
        (retryFrom once left).sleptMs +
          if kMaxAttempts - (left + 1) + 1 < kMaxAttempts then
            100 * 2 ^ (kMaxAttempts - (left + 1))
          else 0⟩ := by
  obtain ⟨response, attempted, status⟩ := throttled
  rw [retryFrom, attempted]
  simp only [if_neg (not_not.mpr status)]

/-- The first attempt that is not throttled decides; before it the client has slept 100,
200 milliseconds.  After three throttled attempts the call fails. -/
theorem retry_cases (once : ℕ → Except VaultError VaultResponse) :
    (∃ attempt < kMaxAttempts, (∀ earlier < attempt, IsThrottled (once earlier)) ∧
      ¬IsThrottled (once attempt) ∧
      retry once = ⟨once attempt, attempt + 1, 100 * (2 ^ attempt - 1)⟩) ∨
    (∀ attempt < kMaxAttempts, IsThrottled (once attempt)) ∧
      retry once = ⟨.error .vaultServerError, kMaxAttempts, 300⟩ := by
  unfold retry
  by_cases first : IsThrottled (once 0)
  · rw [show kMaxAttempts = 2 + 1 from rfl, retryFrom_of_throttled first]
    by_cases second : IsThrottled (once 1)
    · rw [show 2 = 1 + 1 from rfl, retryFrom_of_throttled second]
      by_cases third : IsThrottled (once 2)
      · refine .inr ⟨fun attempt within => ?_, ?_⟩
        · interval_cases attempt <;> assumption
        · rw [show 1 = 0 + 1 from rfl, retryFrom_of_throttled third]
          rfl
      · refine .inl ⟨2, by decide, fun earlier before => ?_, third, ?_⟩
        · interval_cases earlier <;> assumption
        · rw [show 1 = 0 + 1 from rfl, retryFrom_of_not_throttled third]
          rfl
    · refine .inl ⟨1, by decide, fun earlier before => ?_, second, ?_⟩
      · interval_cases earlier
        exact first
      · rw [show 2 = 1 + 1 from rfl, retryFrom_of_not_throttled second]
        rfl
  · refine .inl ⟨0, by decide, fun earlier before => absurd before (Nat.not_lt_zero _), first, ?_⟩
    rw [show kMaxAttempts = 2 + 1 from rfl, retryFrom_of_not_throttled first]
    rfl

/-! ### The calls -/

/-- The arguments of `do_request` for a `POST`. -/
structure VaultPost extends VaultRequest where
  body : String

/-- A client, the texts of JSON values, and what becomes of each attempt of a request. -/
structure Session where
  config : VaultConfig
  dump : Json → String
  parse : String → Option Json
  get : VaultRequest → ℕ → Exchange
  post : VaultPost → ℕ → Exchange

/-- `data_obj` of `put_secret`, which stays null when nothing is entered. -/
def dataJson (data : Table String String) : Json :=
  if data.entries = [] then .null
  else .object (data.entries.map fun entry => (entry.1, .string entry.2))

def putBody (data : Table String String) : Json :=
  .object [("data", dataJson data)]

def loginBody (roleId secretId : String) : Json :=
  .object [("role_id", .string roleId), ("secret_id", .string secretId)]

namespace Session

variable (session : Session)

/-- The client of the calls without a body. -/
def reader : VaultClient where
  config := session.config
  parse := session.parse
  doRequestOnce request attempt := (session.get request attempt).doRequestOnce request.tls

def doPost (post : VaultPost) : Except VaultError VaultResponse :=
  (retry fun attempt => (session.post post attempt).doRequestOnce post.tls).result

/-- A request to another target of the same address. -/
def requestTo (target : Text) (headers : Table String String) : VaultRequest :=
  { session.reader.secretRequest [] with target := target, headers := headers }

def tokenHeader : Table String String :=
  AList.singleton "X-Vault-Token" session.config.token

def secretPost (path : Text) (data : Table String String) : VaultPost :=
  { session.reader.secretRequest path with body := session.dump (putBody data) }

def putSecret (path : Text) (data : Table String String) : Except VaultError Bool :=
  if path = [] then .error .invalidConfig
  else
    match session.doPost (session.secretPost path data) with
    | .error error => .error error
    | .ok response =>
        match checkResponse response with
        | .error error => .error error
        | .ok _ => .ok true

def credsRequest (roleName : Text) : VaultRequest :=
  session.requestTo ("/v1/database/creds/".toList ++ Core.sanitizePath roleName)
    session.tokenHeader

/-- `d.value(..)` throws when `d` is no object or the field is no string. -/
def takeCreds (json : Json) : Except VaultError String :=
  match json.field? "data" with
  | none => .error .parseError
  | some d =>
      match d.value "username" "", d.value "password" "" with
      | .ok username, .ok password => .ok (username ++ ":" ++ password)
      | _, _ => .error .parseError

/-- What is left of a call when the response is there. -/
def readReply {Value : Type} (reply : Except VaultError VaultResponse)
    (take : Json → Except VaultError Value) : Except VaultError Value :=
  match reply with
  | .error error => .error error
  | .ok response =>
      match checkResponse response with
      | .error error => .error error
      | .ok _ =>
          match session.parse response.body with
          | none => .error .parseError
          | some json => take json

def getDatabaseCreds (roleName : Text) : Except VaultError String :=
  if roleName = [] then .error .invalidConfig
  else session.readReply (session.reader.doRequest (session.credsRequest roleName)) takeCreds

def loginPost (roleId secretId : String) : VaultPost :=
  { session.requestTo "/v1/auth/approle/login".toList ∅ with
    body := session.dump (loginBody roleId secretId) }

def takeClientToken (json : Json) : Except VaultError String :=
  match (json.field? "auth").bind (Json.field? "client_token") with
  | none => .error .parseError
  | some token =>
      match token.getString with
      | .error _ => .error .parseError
      | .ok text => .ok text

def getApproleToken (roleId secretId : String) : Except VaultError String :=
  if roleId = "" ∨ secretId = "" then .error .invalidConfig
  else session.readReply (session.doPost (session.loginPost roleId secretId)) takeClientToken

def healthRequest : VaultRequest :=
  session.requestTo "/v1/sys/health".toList
    (if session.config.token = "" then ∅ else session.tokenHeader)

/-- `health_check`, which the constructor runs. -/
def isConnected : Bool :=
  match session.reader.doRequest session.healthRequest with
  | .ok response => 200 ≤ response.status && response.status < 500
  | .error _ => false

end Session

/-! ### Answered requests -/

section Answers

variable {exchanges : ℕ → Exchange} {useTls : Bool} {response : VaultResponse}

/-- All attempts before this one are throttled, and in this one the request is written. -/
def Reached (exchanges : ℕ → Exchange) (useTls : Bool) (attempt : ℕ) : Prop :=
  attempt < kMaxAttempts ∧
    (∀ earlier < attempt, IsThrottled ((exchanges earlier).doRequestOnce useTls)) ∧
    (exchanges attempt).Delivered useTls

theorem retry_eq_ok_iff :
    (retry fun attempt => (exchanges attempt).doRequestOnce useTls).result = .ok response ↔
      response.status ≠ 429 ∧ ∃ attempt, Reached exchanges useTls attempt ∧
        ((exchanges attempt).read = .response response ∨
          (exchanges attempt).read = .endOfStream ∧ response = .initial) := by
  rcases retry_cases fun attempt => (exchanges attempt).doRequestOnce useTls with
    ⟨last, within, throttled, answered, same⟩ | ⟨throttled, same⟩
  · rw [same]
    constructor
    · intro received
      refine ⟨fun busy => answered ⟨response, received, busy⟩, last, ?_⟩
      obtain ⟨delivered, read⟩ := (Exchange.doRequestOnce_eq_ok_iff _).mp received
      exact ⟨⟨within, throttled, delivered⟩, read⟩
    · rintro ⟨other, attempt, ⟨inside, before, delivered⟩, read⟩
      have received := (Exchange.doRequestOnce_eq_ok_iff _).mpr ⟨delivered, read⟩
      -- Both are the first attempt that is not throttled.
      rcases Nat.lt_trichotomy attempt last with earlier | rfl | later
      · obtain ⟨busy, busyEq, status⟩ := throttled attempt earlier
        rw [received] at busyEq
        cases busyEq
        exact absurd status other
      · exact received
      · exact absurd (before last later) answered
  · rw [same]
    constructor
    · intro received
      cases received
    · rintro ⟨other, attempt, ⟨inside, before, delivered⟩, read⟩
      have received := (Exchange.doRequestOnce_eq_ok_iff _).mpr ⟨delivered, read⟩
      obtain ⟨busy, busyEq, status⟩ := throttled attempt inside
      rw [received] at busyEq
      cases busyEq
      exact absurd status other

/-- The request got a response of the server with a status of success. -/
def Accepted (exchanges : ℕ → Exchange) (useTls : Bool) (attempt : ℕ)
    (response : VaultResponse) : Prop :=
  Reached exchanges useTls attempt ∧ (exchanges attempt).read = .response response ∧
    200 ≤ response.status ∧ response.status < 300

theorem checkResponse_eq_ok_iff {code : ℕ} :
    checkResponse response = .ok code ↔
      code = response.status ∧ 200 ≤ response.status ∧ response.status < 300 := by
  simp only [checkResponse]
  split
  · rename_i success
    simp only [Except.ok.injEq]
    exact ⟨fun same => ⟨same.symm, success⟩, fun same => same.1.symm⟩
  · rename_i failure
    constructor
    · intro accepted
      split_ifs at accepted
    · rintro ⟨-, success⟩
      exact absurd success failure

end Answers

namespace Session

variable {session : Session}

theorem putSecret_eq_ok_iff {path : Text} {data : Table String String} :
    session.putSecret path data = .ok true ↔
      path ≠ [] ∧ ∃ attempt,
        (∃ response, Accepted (session.post (session.secretPost path data))
          (session.secretPost path data).tls attempt response) ∨
        Reached (session.post (session.secretPost path data))
            (session.secretPost path data).tls attempt ∧
          (session.post (session.secretPost path data) attempt).read = .endOfStream := by
  unfold putSecret
  by_cases empty : path = []
  · simp [empty]
  rw [if_neg empty]
  constructor
  · intro stored
    refine ⟨empty, ?_⟩
    split at stored
    · cases stored
    rename_i response received
    split at stored
    · cases stored
    rename_i code accepted
    obtain ⟨-, low, high⟩ := checkResponse_eq_ok_iff.mp accepted
    obtain ⟨-, attempt, reached, read⟩ := retry_eq_ok_iff.mp received
    rcases read with answer | ⟨closed, -⟩
    · exact ⟨attempt, .inl ⟨response, reached, answer, low, high⟩⟩
    · exact ⟨attempt, .inr ⟨reached, closed⟩⟩
  · rintro ⟨-, attempt, ⟨response, reached, answer, low, high⟩ | ⟨reached, closed⟩⟩
    · have received : session.doPost (session.secretPost path data) = .ok response :=
        retry_eq_ok_iff.mpr ⟨by omega, attempt, reached, .inl answer⟩
      rw [received]
      simp only [checkResponse_eq_ok_iff.mpr ⟨rfl, low, high⟩]
    · have received : session.doPost (session.secretPost path data) = .ok .initial :=
        retry_eq_ok_iff.mpr ⟨by decide, attempt, reached, .inr ⟨closed, rfl⟩⟩
      rw [received]
      rfl

/-- What `put_secret` does to the network, attempt by attempt. -/
def putAttempts (session : Session) (path : Text) (data : Table String String) : Retried :=
  retry fun attempt => (session.post (session.secretPost path data) attempt).doRequestOnce
    (session.secretPost path data).tls

/-- `put_secret` reports success exactly when, after throttled attempts only, the request was
written and the server has answered with success or has closed the connection without any
answer.  The secret is sent at most three times, again only after an answer that it was
throttled, and with at most 300 milliseconds of sleep in between. -/
theorem putSecret_reports (session : Session) (path : Text) (data : Table String String) :
    (session.putSecret path data = .ok true ↔
      path ≠ [] ∧ ∃ attempt,
        (∃ response, Accepted (session.post (session.secretPost path data))
          (session.secretPost path data).tls attempt response) ∨
        Reached (session.post (session.secretPost path data))
            (session.secretPost path data).tls attempt ∧
          (session.post (session.secretPost path data) attempt).read = .endOfStream) ∧
    (session.putAttempts path data).attempts ≤ kMaxAttempts ∧
    (session.putAttempts path data).sleptMs ≤ 300 ∧
    ∀ attempt, attempt + 1 < (session.putAttempts path data).attempts →
      IsThrottled ((session.post (session.secretPost path data) attempt).doRequestOnce
        (session.secretPost path data).tls) := by
  refine ⟨putSecret_eq_ok_iff, ?_⟩
  unfold putAttempts
  rcases retry_cases fun attempt => (session.post (session.secretPost path data)
      attempt).doRequestOnce (session.secretPost path data).tls with
    ⟨last, within, throttled, -, same⟩ | ⟨throttled, same⟩
  · rw [same]
    refine ⟨within, ?_, fun attempt more => throttled attempt (Nat.lt_of_succ_lt_succ more)⟩
    have within : last < 3 := within
    change 100 * (2 ^ last - 1) ≤ 300
    interval_cases last <;> decide
  · rw [same]
    exact ⟨le_rfl, le_rfl, fun attempt more => throttled attempt (Nat.lt_of_succ_lt more)⟩

/-- A response that can be parsed has come from the server. -/
theorem accepted_of_parsed {exchanges : ℕ → Exchange} {useTls : Bool}
    {response : VaultResponse} {json : Json} (noEmpty : session.parse "" = none)
    (received : (retry fun attempt => (exchanges attempt).doRequestOnce useTls).result =
      .ok response)
    (low : 200 ≤ response.status) (high : response.status < 300)
    (parsed : session.parse response.body = some json) :
    ∃ attempt, Accepted exchanges useTls attempt response := by
  obtain ⟨-, attempt, reached, read⟩ := retry_eq_ok_iff.mp received
  rcases read with answer | ⟨-, rfl⟩
  · exact ⟨attempt, reached, answer, low, high⟩
  · rw [show VaultResponse.initial.body = "" from rfl, noEmpty] at parsed
    cases parsed

theorem accepted_of_readReply {Value : Type} {exchanges : ℕ → Exchange} {useTls : Bool}
    {take : Json → Except VaultError Value} {value : Value} (noEmpty : session.parse "" = none)
    (read : session.readReply
      (retry fun attempt => (exchanges attempt).doRequestOnce useTls).result take = .ok value) :
    ∃ attempt response json, Accepted exchanges useTls attempt response ∧
      session.parse response.body = some json ∧ take json = .ok value := by
  unfold readReply at read
  split at read
  · cases read
  rename_i response received
  split at read
  · cases read
  rename_i code accepted
  split at read
  · cases read
  rename_i json parsed
  obtain ⟨-, low, high⟩ := checkResponse_eq_ok_iff.mp accepted
  obtain ⟨attempt, answer⟩ := accepted_of_parsed noEmpty received low high parsed
  exact ⟨attempt, response, json, answer, parsed, read⟩

theorem accepted_of_readSecret {Value : Type} {path : Text}
    {take : Json → Except VaultError Value} {value : Value} (noEmpty : session.parse "" = none)
    (read : session.reader.readSecret path take = .ok value) :
    ∃ attempt response, Accepted (session.get (session.reader.secretRequest path))
      (session.reader.secretRequest path).tls attempt response := by
  obtain ⟨data, ⟨-, response, json, outer, received, low, high, parsed, -, -⟩, -⟩ :=
    VaultClient.exists_holds read
  rw [VaultClient.doRequest] at received
  obtain ⟨attempt, answer⟩ := accepted_of_parsed noEmpty received low high parsed
  exact ⟨attempt, response, answer⟩

/-- Every call that returns a value has an answer of the server with success to its own
request, after throttled attempts only: a connection that is closed without an answer gives
no secret, no credentials and no token.  But `put_secret` takes it for success, at whichever
attempt it comes, and so does the test of the connection. -/
theorem reads_are_answered (noEmpty : session.parse "" = none) :
    (∀ path key text, session.reader.getSecret path key = .ok text →
      ∃ attempt response, Accepted (session.get (session.reader.secretRequest path))
        (session.reader.secretRequest path).tls attempt response) ∧
    (∀ path map, session.reader.getSecretMap path = .ok map →
      ∃ attempt response, Accepted (session.get (session.reader.secretRequest path))
        (session.reader.secretRequest path).tls attempt response) ∧
    (∀ roleName creds, session.getDatabaseCreds roleName = .ok creds →
      ∃ attempt response, Accepted (session.get (session.credsRequest roleName))
        (session.credsRequest roleName).tls attempt response) ∧
    (∀ roleId secretId token, session.getApproleToken roleId secretId = .ok token →
      ∃ attempt response, Accepted (session.post (session.loginPost roleId secretId))
        (session.loginPost roleId secretId).tls attempt response) ∧
    (∀ path data attempt, path ≠ [] →
      Reached (session.post (session.secretPost path data))
        (session.secretPost path data).tls attempt →
      (session.post (session.secretPost path data) attempt).read = .endOfStream →
      session.putSecret path data = .ok true) ∧
    (∀ attempt, Reached (session.get session.healthRequest) session.healthRequest.tls attempt →
      (session.get session.healthRequest attempt).read = .endOfStream →
      session.isConnected = true) := by
  refine ⟨?_, ?_, ?_, ?_, ?_, ?_⟩
  · intro path key text read
    exact accepted_of_readSecret noEmpty read
  · intro path map read
    exact accepted_of_readSecret noEmpty read
  · intro roleName creds read
    unfold getDatabaseCreds at read
    split at read
    · cases read
    · rw [VaultClient.doRequest] at read
      obtain ⟨attempt, response, -, answer, -⟩ := accepted_of_readReply noEmpty read
      exact ⟨attempt, response, answer⟩
  · intro roleId secretId token read
    unfold getApproleToken at read
    split at read
    · cases read
    · obtain ⟨attempt, response, -, answer, -⟩ := accepted_of_readReply noEmpty read
      exact ⟨attempt, response, answer⟩
  · intro path data attempt named reached closed
    exact putSecret_eq_ok_iff.mpr ⟨named, attempt, .inr ⟨reached, closed⟩⟩
  · intro attempt reached closed
    have received : session.reader.doRequest session.healthRequest = .ok .initial :=
      retry_eq_ok_iff.mpr ⟨by decide, attempt, reached, .inr ⟨closed, rfl⟩⟩
    unfold isConnected
    rw [received]
    rfl

def secretBody : String :=
  "\x7b\"data\":\x7b\"data\":\x7b\"password\":\"hunter2\"\x7d\x7d\x7d"

/-- A server that throttles the first attempt, then answers a secret's `GET` and closes all
other connections without an answer. -/
def faltering : Session where
  config := {}
  dump _ := ""
  parse text :=
    if text = secretBody then
      some (.object [("data", .object [("data", .object [("password", .string "hunter2")])])])
    else none
  get request attempt := ⟨true, true, .connected, true, true,
    if attempt = 0 then .response ⟨429, ""⟩
    else if request.target = "/v1/sys/health".toList then .endOfStream
    else .response ⟨200, secretBody⟩⟩
  post _ attempt := ⟨true, true, .connected, true, true,
    if attempt = 0 then .response ⟨429, ""⟩ else .endOfStream⟩

theorem reads_are_answered_faltering :
    faltering.reader.getSecret "db".toList "password" = .ok "hunter2" ∧
      (∃ attempt response, Accepted (faltering.get (faltering.reader.secretRequest "db".toList))
        (faltering.reader.secretRequest "db".toList).tls attempt response) ∧
      faltering.putSecret "db".toList ∅ = .ok true ∧ faltering.isConnected = true := by
  have noEmpty : faltering.parse "" = none := by decide
  obtain ⟨read, -, -, -, stored, connected⟩ := reads_are_answered noEmpty
  have value : faltering.reader.getSecret "db".toList "password" = .ok "hunter2" := by
    decide +kernel
  have delivered (useTls : Bool) (answer : ReadResult) :
      (⟨true, true, .connected, true, true, answer⟩ : Exchange).Delivered useTls :=
    ⟨rfl, rfl, fun _ => ⟨rfl, rfl⟩, rfl⟩
  -- Both requests are closed at their second attempt.
  have throttled {exchanges : ℕ → Exchange} {useTls : Bool}
      (first : (exchanges 0).doRequestOnce useTls = .ok ⟨429, ""⟩) :
      ∀ earlier < 1, IsThrottled ((exchanges earlier).doRequestOnce useTls) := by
    intro earlier before
    rw [Nat.lt_one_iff.mp before]
    exact ⟨_, first, rfl⟩
  refine ⟨value, read _ _ _ value, ?_, ?_⟩
  · exact stored "db".toList ∅ 1 (by decide)
      ⟨by decide, throttled (by decide +kernel), delivered _ _⟩ rfl
  · exact connected 1 ⟨by decide, throttled (by decide +kernel), delivered _ _⟩ (by decide +kernel)

end Session

end Cppload.Vault
