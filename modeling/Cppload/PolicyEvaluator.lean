import Cppload.Repository

/-!
# Evaluation of policies

`PolicyEvaluator::evaluate` compares the result of a run with the rules of a
policy.  Numbers of type `double` are taken as exact.
-/

namespace Cppload.Platform

inductive PolicySeverity where
  | warning
  | error
  deriving DecidableEq, Repr

structure PolicyViolation where
  ruleMetric : String
  message : String
  severity : PolicySeverity
  deriving DecidableEq, Repr

structure PolicyEvaluation where
  runId : String
  policyId : String
  passed : Bool
  violations : List PolicyViolation
  deriving DecidableEq, Repr

/-- Digits padded with zeros on the left. -/
def padLeft (width : ℕ) (digits : String) : String :=
  "".pushn '0' (width - digits.length) ++ digits

/-- `std::to_string(double)`: six decimals, a tie is rounded to the even digit. -/
def toFixed (value : ℚ) : String :=
  let scaled := |value| * 1000000
  let whole := scaled.floor.toNat
  let rest := scaled - whole
  let rounded :=
    if 1 / 2 < rest ∨ (rest = 1 / 2 ∧ whole % 2 = 1) then whole + 1 else whole
  (if value < 0 then "-" else "") ++ toString (rounded / 1000000) ++ "." ++
    padLeft 6 (toString (rounded % 1000000))

namespace PolicyEvaluator

def getMetricValue (result : RunResult) (metric : String) : Option ℚ :=
  if metric = "error_rate_pct" then some result.errorRatePct
  else if metric = "throughput_rps" then some result.throughputRps
  else if metric = "p50_latency_ms" then some result.p50LatencyMs
  else if metric = "p95_latency_ms" then some result.p95LatencyMs
  else if metric = "p99_latency_ms" then some result.p99LatencyMs
  else if metric = "total_requests" then some result.totalRequests
  else if metric = "failed_requests" then some result.failedRequests
  else none

/-- `check_threshold`, which tells whether the rule is violated. -/
def checkThreshold (actual : ℚ) (op : String) (threshold : ℚ) : Bool :=
  if op = "<" then !decide (actual < threshold)
  else if op = "<=" then !decide (actual ≤ threshold)
  else if op = ">" then !decide (threshold < actual)
  else if op = ">=" then !decide (threshold ≤ actual)
  else if op = "==" then decide (1 / 1000000000 < |actual - threshold|)
  else if op = "!=" then decide (|actual - threshold| ≤ 1 / 1000000000)
  else true

def formatViolation (metric op : String) (threshold actual : ℚ) : String :=
  metric ++ " expected " ++ op ++ " " ++ toFixed threshold ++ " but got " ++ toFixed actual

/-- The body of the loop of `evaluate`. -/
def applyRule (result : RunResult) (evaluation : PolicyEvaluation) (rule : PolicyRule) :
    PolicyEvaluation :=
  match getMetricValue result rule.metric with
  | none =>
      { evaluation with
        violations := evaluation.violations ++
          [⟨rule.metric, "unknown metric: " ++ rule.metric, .warning⟩] }
  | some actual =>
      if checkThreshold actual rule.op rule.threshold then
        { evaluation with
          passed := false
          violations := evaluation.violations ++
            [⟨rule.metric, formatViolation rule.metric rule.op rule.threshold actual,
              .error⟩] }
      else evaluation

/-- An evaluation that ends before the rules are looked at. -/
def refused (runId policyId metric message : String) : PolicyEvaluation :=
  ⟨runId, policyId, false, [⟨metric, message, .error⟩]⟩

def evaluate (repository : Repository) (runId policyId : String) : PolicyEvaluation :=
  match repository.getRun runId with
  | .error _ => refused runId policyId "run" ("run not found: " ++ runId)
  | .ok run =>
      match repository.getPolicy policyId with
      | .error _ => refused runId policyId "policy" ("policy not found: " ++ policyId)
      | .ok policy =>
          match run.result with
          | none => refused runId policyId "result" "run has no result yet"
          | some result => policy.rules.foldl (applyRule result) ⟨runId, policyId, true, []⟩

end PolicyEvaluator

end Cppload.Platform
