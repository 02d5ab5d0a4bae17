import Cppload.PolicyEvaluator

/-!
# The verdict of a policy

`evaluate` goes through the rules with a flag and a list.  What it has at the end is a
verdict on each rule by itself: the rules that are not satisfied fail the run, and they and
the rules with an unknown metric are listed in the order of the rules.
-/

namespace Cppload.Platform.PolicyEvaluator

/-! ## Rules -/

/-- The metrics that a rule can name, with the values of a result. -/
def metricsOf (result : RunResult) : List (String × ℚ) :=
  [("error_rate_pct", result.errorRatePct), ("throughput_rps", result.throughputRps),
    ("p50_latency_ms", result.p50LatencyMs), ("p95_latency_ms", result.p95LatencyMs),
    ("p99_latency_ms", result.p99LatencyMs), ("total_requests", result.totalRequests),
    ("failed_requests", result.failedRequests)]

/-- The value meets the threshold.  No other operator is ever satisfied. -/
def Satisfied (op : String) (actual threshold : ℚ) : Prop :=
  (op = "<" ∧ actual < threshold) ∨ (op = "<=" ∧ actual ≤ threshold) ∨
    (op = ">" ∧ threshold < actual) ∨ (op = ">=" ∧ threshold ≤ actual) ∨
    (op = "==" ∧ |actual - threshold| ≤ 1 / 1000000000) ∨
    (op = "!=" ∧ 1 / 1000000000 < |actual - threshold|)

instance (op : String) (actual threshold : ℚ) : Decidable (Satisfied op actual threshold) :=
  inferInstanceAs (Decidable (_ ∨ _))

/-- The entry for a rule, if it has one. -/
def violationOf (result : RunResult) (rule : PolicyRule) : Option PolicyViolation :=
  match (metricsOf result).lookup rule.metric with
  | none => some ⟨rule.metric, "unknown metric: " ++ rule.metric, .warning⟩
  | some actual =>
      if Satisfied rule.op actual rule.threshold then none
      else some ⟨rule.metric, formatViolation rule.metric rule.op rule.threshold actual, .error⟩

/-- A rule that does not fail the run. -/
def Passes (result : RunResult) (rule : PolicyRule) : Prop :=
  ∀ entry ∈ metricsOf result, entry.1 = rule.metric → Satisfied rule.op entry.2 rule.threshold

instance (result : RunResult) (rule : PolicyRule) : Decidable (Passes result rule) :=
  inferInstanceAs (Decidable (∀ entry ∈ metricsOf result, _))

theorem lookup_metricsOf (result : RunResult) (metric : String) :
    (metricsOf result).lookup metric = getMetricValue result metric := by
  simp only [metricsOf, getMetricValue, List.lookup, beq_eq_decide]
  split_ifs <;> simp [*]

theorem passes_iff {result : RunResult} {rule : PolicyRule} :
    Passes result rule ↔
      ∀ actual ∈ getMetricValue result rule.metric, Satisfied rule.op actual rule.threshold := by
  simp only [Passes, metricsOf, List.forall_mem_cons, getMetricValue, eq_comm (b := rule.metric)]
  split_ifs <;> simp [*]

theorem checkThreshold_eq_false_iff {op : String} {actual threshold : ℚ} :
    checkThreshold actual op threshold = false ↔ Satisfied op actual threshold := by
  unfold checkThreshold Satisfied
  split_ifs with less atMost more atLeast equal unequal
  · simp [less]
  · simp [atMost]
  · simp [more]
  · simp [atLeast]
  · simp [equal]
  · simp [unequal]
  · simp [less, atMost, more, atLeast, equal, unequal]

/-! ## The loop -/

theorem applyRule_eq (result : RunResult) (evaluation : PolicyEvaluation) (rule : PolicyRule) :
    applyRule result evaluation rule =
      { evaluation with
        passed := evaluation.passed && decide (Passes result rule)
        violations := evaluation.violations ++ (violationOf result rule).toList } := by
  cases known : getMetricValue result rule.metric with
  | none =>
      have passes : Passes result rule := by simp [passes_iff, known]
      simp [applyRule, violationOf, lookup_metricsOf, known, passes]
  | some actual =>
      have passes : Passes result rule ↔ Satisfied rule.op actual rule.threshold := by
        simp [passes_iff, known]
      cases violated : checkThreshold actual rule.op rule.threshold with
      | false =>
          have satisfied := checkThreshold_eq_false_iff.mp violated
          simp [applyRule, violationOf, lookup_metricsOf, known, violated, passes, satisfied]
      | true =>
          have unsatisfied : ¬ Satisfied rule.op actual rule.threshold := by
            rw [← checkThreshold_eq_false_iff, violated]
            simp
          simp [applyRule, violationOf, lookup_metricsOf, known, violated, passes, unsatisfied]

theorem foldl_applyRule (result : RunResult) (rules : List PolicyRule)
    (evaluation : PolicyEvaluation) :
    rules.foldl (applyRule result) evaluation =
      { evaluation with
        passed := evaluation.passed && decide (∀ rule ∈ rules, Passes result rule)
        violations := evaluation.violations ++ rules.filterMap (violationOf result) } := by
  induction rules generalizing evaluation with
  | nil => simp
  | cons rule rules induction =>
      rw [List.foldl_cons, induction, applyRule_eq]
      have conjunction : decide (∀ other ∈ rule :: rules, Passes result other) =
          (decide (Passes result rule) && decide (∀ other ∈ rules, Passes result other)) := by
        simp
      have entries : (rule :: rules).filterMap (violationOf result) =
          (violationOf result rule).toList ++ rules.filterMap (violationOf result) := by
        cases found : violationOf result rule <;> simp [found]
      simp only [conjunction, entries, Bool.and_assoc, List.append_assoc]

/-! ## Verdicts -/

variable {repository : Repository} {runId policyId : String} {policy : Policy}
variable {result : RunResult}

/-- Run, policy and result are there. -/
structure Judges (repository : Repository) (runId policyId : String) (policy : Policy)
    (result : RunResult) : Prop where
  run : ∃ run, repository.runs.lookup runId = some run ∧ run.result = some result
  policy : repository.policies.lookup policyId = some policy

theorem Judges.evaluate_eq (judges : Judges repository runId policyId policy result) :
    evaluate repository runId policyId =
      ⟨runId, policyId, decide (∀ rule ∈ policy.rules, Passes result rule),
        policy.rules.filterMap (violationOf result)⟩ := by
  obtain ⟨⟨run, runFound, resultFound⟩, policyFound⟩ := judges
  simp only [evaluate, Repository.getRun, Repository.getPolicy, Repository.found, runFound,
    policyFound, resultFound, foldl_applyRule]
  simp

/-- Without run, policy or result nothing passes. -/
theorem exists_judges (passed : (evaluate repository runId policyId).passed = true) :
    ∃ policy result, Judges repository runId policyId policy result := by
  unfold evaluate Repository.getRun Repository.getPolicy at passed
  cases runFound : repository.runs.lookup runId with
  | none =>
      rw [runFound] at passed
      cases passed
  | some run =>
      cases policyFound : repository.policies.lookup policyId with
      | none =>
          rw [runFound, policyFound] at passed
          cases passed
      | some policy =>
          cases resultFound : run.result with
          | none =>
              simp only [runFound, policyFound, Repository.found, resultFound] at passed
              cases passed
          | some result => exact ⟨policy, result, ⟨run, runFound, resultFound⟩, policyFound⟩

/-- A policy passes exactly if run, policy and result are there and every rule whose metric
is known is satisfied.  The violations are those of the single rules in their order, and in
another order of the rules they are the same up to order. -/
theorem evaluate_sound_and_complete (repository : Repository) (runId policyId : String) :
    ((evaluate repository runId policyId).passed = true ↔
        ∃ policy result, Judges repository runId policyId policy result ∧
          ∀ rule ∈ policy.rules, ∀ entry ∈ metricsOf result, entry.1 = rule.metric →
            Satisfied rule.op entry.2 rule.threshold) ∧
      ∀ policy result, Judges repository runId policyId policy result →
        (evaluate repository runId policyId).violations =
            policy.rules.filterMap (violationOf result) ∧
          ∀ (other : Repository) (permuted : Policy),
            Judges other runId policyId permuted result → permuted.rules.Perm policy.rules →
              (evaluate other runId policyId).violations.Perm
                  (evaluate repository runId policyId).violations ∧
                (evaluate other runId policyId).passed =
                  (evaluate repository runId policyId).passed := by
  refine ⟨⟨?_, ?_⟩, ?_⟩
  · intro passed
    obtain ⟨policy, result, judges⟩ := exists_judges passed
    rw [judges.evaluate_eq] at passed
    exact ⟨policy, result, judges, of_decide_eq_true passed⟩
  · rintro ⟨policy, result, judges, passes⟩
    rw [judges.evaluate_eq]
    exact decide_eq_true passes
  · intro policy result judges
    rw [judges.evaluate_eq]
    refine ⟨rfl, fun other permuted judgesOther permutation => ?_⟩
    rw [judgesOther.evaluate_eq]
    refine ⟨permutation.filterMap _, ?_⟩
    simp only [permutation.mem_iff]

end Cppload.Platform.PolicyEvaluator
