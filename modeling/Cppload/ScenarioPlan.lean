import Cppload.ConnectionPool

/-!
# What a run of the scenario engine is given

The configuration as far as `ScenarioEngine::Impl::run` reads it, the values that
`run` derives from it before its stage loop, and the arithmetic of its deadlines
and request slots.
-/

namespace Cppload.Engine

/-- The fields of a step from which a worker builds its request. -/
structure HttpStep where
  method : String
  path : List UInt8
  body : List UInt8
  headers : List (String × String)
  useTls : Bool
  deriving DecidableEq, Repr

structure Scenario where
  weight : ℕ
  steps : List HttpStep
  deriving DecidableEq, Repr

/-- `LoadProfile::Stage`; the duration is in milliseconds and zero means that
the stage has no deadline of its own. -/
structure Stage where
  duration : ℤ
  targetRps : ℕ
  concurrentUsers : ℕ
  deriving DecidableEq, Repr

/-- `core::UrlParts` as `parse_url` fills it. -/
structure UrlParts where
  host : String
  port : String
  tls : Bool
  deriving DecidableEq, Repr

/-- The configuration as far as `run` reads it.  `stoul` is `std::stoul`, without
a value where that throws. -/
structure Config where
  protocol : String
  baseUrl : UrlParts
  stoul : String → Option ℕ
  stages : List Stage
  scenarios : List Scenario

/-- The locals of `run` that no longer change once its stage loop starts. -/
structure Plan where
  protocol : String
  baseUrl : UrlParts
  stoul : String → Option ℕ
  stages : List Stage
  concurrency : ℕ
  scenarios : List Scenario
  maxDurationMs : ℤ

/-- `core::kDefaultConcurrency`. -/
def defaultConcurrency : ℕ := 10

/-- The stage that stands in for an empty load profile. -/
def defaultStage (maxDurationMs : ℤ) (targetRps : ℕ) : Stage where
  duration := if 0 < maxDurationMs then maxDurationMs else 60000
  targetRps := if targetRps = 0 then 100 else targetRps
  concurrentUsers := defaultConcurrency

/-- `std::min(std::max(users, 1u), 100000u)`. -/
def clampUsers (users : ℕ) : ℕ :=
  min (max users 1) 100000

def Config.plan (config : Config) (maxDurationMs : ℤ) (targetRps : ℕ) : Plan :=
  let stages :=
    if config.stages.isEmpty then [defaultStage maxDurationMs targetRps]
    else config.stages
  let users := (stages.head?.map Stage.concurrentUsers).getD defaultConcurrency
  { protocol := if config.protocol.isEmpty then "http1.1" else config.protocol
    baseUrl := config.baseUrl
    stoul := config.stoul
    stages := stages
    concurrency := clampUsers (if users = 0 then defaultConcurrency else users)
    scenarios := config.scenarios
    maxDurationMs := maxDurationMs }

/-- Stages with one request to make, sent to one host over plain HTTP. -/
def Config.probe (stages : List Stage) : Config where
  protocol := "http1.1"
  baseUrl := { host := "localhost", port := "", tls := false }
  stoul := fun _ => none
  stages := stages
  scenarios :=
    [{ weight := 1
       steps := [{ method := "GET", path := [47], body := [], headers := [], useTls := false }] }]

/-- `stage.concurrent_users > 0 ? stage.concurrent_users : concurrency`. -/
def Plan.usersOf (plan : Plan) (stage : Stage) : ℕ :=
  if 0 < stage.concurrentUsers then stage.concurrentUsers else plan.concurrency

def Plan.stageConcurrency (plan : Plan) (stage : Stage) : ℕ :=
  clampUsers (plan.usersOf stage)

/-- `pool_max`. -/
def Plan.poolMax (plan : Plan) : ℕ :=
  plan.stages.foldl (fun most stage => max most (plan.usersOf stage)) plan.concurrency

/-- The pool of a run; only `http1.1` clients are pooled. -/
def Plan.newPool (plan : Plan) : Option ConnectionPool :=
  if plan.protocol = "http1.1" then
    some (.new { maxConnections := plan.poolMax, idleTimeout := 30 })
  else none

def Plan.anySteps (plan : Plan) : Bool :=
  plan.scenarios.any fun scenario => !scenario.steps.isEmpty

/-- What `resolve_url` writes: host, port and TLS use, and the text it leaves in
`last_error_` when the port is unusable. -/
structure Resolved where
  host : String
  port : ℕ
  useTls : Bool
  error : Option String
  deriving DecidableEq, Repr

def resolveUrl (stoul : String → Option ℕ) (parts : UrlParts) (stepTls : Bool) :
    Resolved :=
  let useTls := parts.tls || stepTls
  let standard := if useTls then 443 else 80
  if parts.port.isEmpty then
    { host := parts.host, port := standard, useTls := useTls, error := none }
  else
    match stoul parts.port with
    | none =>
        { host := parts.host, port := standard, useTls := useTls
          error := some ("invalid port: " ++ parts.port) }
    | some port =>
        if port = 0 ∨ 65535 < port then
          { host := parts.host, port := standard, useTls := useTls
            error := some ("port out of range: " ++ parts.port) }
        else
          { host := parts.host, port := port, useTls := useTls, error := none }

/-- The `host:port` under which the workers use the pool. -/
def Plan.endpoint (plan : Plan) : Resolved :=
  resolveUrl plan.stoul plan.baseUrl false

/-- A draw falls on the scenario whose share of the weights it lies in. -/
def drawScenario : List Scenario → ℕ → Option Scenario
  | [], _ => none
  | scenario :: rest, pick =>
      let weight := if 0 < scenario.weight then scenario.weight else 1
      if pick < weight then some scenario else drawScenario rest (pick - weight)

/-- `pick_weighted_scenario` for the draw `pick`. -/
def pickWeightedScenario (scenarios : List Scenario) (pick : ℕ) : Option Scenario :=
  (drawScenario scenarios pick).or scenarios.getLast?

/-- Signed 64-bit arithmetic, as the steady clock's nanoseconds are computed. -/
def wrap64 (value : ℤ) : ℤ :=
  value.bmod (2 ^ 64)

/-- `std::chrono::steady_clock::time_point::max()`. -/
def timePointMax : ℤ := 2 ^ 63 - 1

/-- `kMaxHorizon`, a hundred years. -/
def maxHorizon : ℤ := 24 * 365 * 100 * 3600 * 1000000000

def Plan.globalEnd (plan : Plan) (now : ℤ) : ℤ :=
  if 0 < plan.maxDurationMs then wrap64 (now + wrap64 (plan.maxDurationMs * 1000000))
  else timePointMax

/-- `stage_end` for a stage begun at `now`. -/
def Stage.endAt (stage : Stage) (now globalEnd : ℤ) : ℤ :=
  let limit := timePointMax - maxHorizon
  let deadline := wrap64 (now + wrap64 (stage.duration * 1000000))
  let own :=
    if 0 < stage.duration then (if limit < deadline then limit else deadline)
    else timePointMax
  if globalEnd ≠ timePointMax then min own globalEnd else own

/-- `slot_period` in nanoseconds. -/
def slotPeriod (concurrency targetRps : ℕ) : ℤ :=
  let rate : ℚ := if targetRps = 0 then 1 else targetRps
  let period := concurrency / rate * 1000000000
  let raised := if period < 1 then 1 else period
  ⌊if 10 ^ 18 < raised then 10 ^ 18 else raised⌋

/-- `next_slot` of worker `number` before its first request. -/
def firstSlotAt (now period : ℤ) (number concurrency : ℕ) : ℤ :=
  wrap64 (now + (wrap64 (period * number)).tdiv concurrency)

/-- Two milliseconds, the part of a wait that is spent spinning. -/
def spinTime : ℤ := 2000000

end Cppload.Engine
