import Cppload.Tracer

/-!
# Export of spans

Spans that are completed wait in a buffer.  A worker thread takes them from its front, in
batches, and hands them to `do_export`; the callers of `enqueue` drop spans from the same
end when the buffer is full.  The destructor stops the worker, which hands over what is
left, joins it and flushes.  Each critical section is one step; the wait of the worker may
time out whenever it likes, and every POST may succeed or fail.

For the proof each span gets a fate when it leaves the buffer.
-/

namespace Cppload.Otel

open Transition

def kOtlpBatchSize : ℕ :=
  64

/-- The backoff of `export_loop` in milliseconds, at the start and at most. -/
def initialBackoff : ℕ :=
  200

def kMaxBackoff : ℕ :=
  5000

/-- Where the worker thread is. -/
inductive Phase where
  /-- At the beginning of a round of `export_loop`. -/
  | looping
  /-- In `do_export`, called from the loop. -/
  | exporting
  /-- After the `break`. -/
  | leaving
  | finished
  deriving DecidableEq, Repr

/-- How a span left the buffer. -/
inductive Fate where
  | evicted
  | handed
  /-- Cleared by the loop because there is no endpoint. -/
  | discarded
  deriving DecidableEq, Repr

/-- What `do_export` was called with, and `stop_` at that time. -/
structure Batch where
  spans : List SpanData
  stopped : Bool

structure Exporter where
  tracer : Tracer
  endpointHost : String
  stop : Bool
  phase : Phase
  backoff : ℕ
  /-- The destructor has flushed the buffer. -/
  flushed : Bool
  enqueued : List SpanData
  removed : List (SpanData × Fate)
  batches : List Batch

namespace Exporter

def new (config : TraceConfig) (traceId endpointHost : String) : Exporter where
  tracer := .new config traceId
  endpointHost := endpointHost
  stop := false
  phase := .looping
  backoff := initialBackoff
  flushed := false
  enqueued := []
  removed := []
  batches := []

/-- `completed_spans_`. -/
abbrev buffer (exporter : Exporter) : List SpanData :=
  exporter.tracer.completedSpans

/-- The first spans leave the buffer. -/
def remove (exporter : Exporter) (count : ℕ) (fate : Fate) : Exporter :=
  { exporter with
    tracer := { exporter.tracer with completedSpans := exporter.buffer.drop count }
    removed := exporter.removed ++ (exporter.buffer.take count).map fun span => (span, fate) }

/-- The first spans are taken out of the buffer and handed to `do_export`. -/
def handOver (exporter : Exporter) (count : ℕ) : Exporter :=
  { exporter.remove count .handed with
    batches := exporter.batches ++ [⟨exporter.buffer.take count, exporter.stop⟩] }

/-- The spans that `enqueue` erases from the front of the buffer. -/
def excess (spans : List SpanData) : List SpanData :=
  spans.take (spans.length - kOtlpMaxBufferedSpans)

def enqueue (exporter : Exporter) (span : SpanData) : Exporter :=
  { exporter with
    tracer := exporter.tracer.enqueue span
    enqueued := exporter.enqueued ++ [span]
    removed := exporter.removed ++
      (excess (exporter.buffer ++ [span])).map fun old => (old, .evicted) }

/-- A round of `export_loop` up to the call of `do_export`. -/
def iterate (exporter : Exporter) : Exporter :=
  if exporter.stop ∧ exporter.buffer = [] then { exporter with phase := .leaving }
  else
    let count := min kOtlpBatchSize exporter.buffer.length
    if exporter.endpointHost = "" then exporter.remove count .discarded
    else { exporter.handOver count with phase := .exporting }

inductive Action where
  | enqueue (span : SpanData)
  | iterate
  /-- `do_export` returns to the loop. -/
  | posted (ok : Bool)
  /-- After the loop, what is left is swapped out and handed over. -/
  | drain
  /-- The destructor sets `stop_`. -/
  | stop
  /-- The destructor has joined the worker and flushes. -/
  | flush

/-- No span is enqueued after the destructor has emptied the buffer. -/
def step (exporter : Exporter) : Action → Option Exporter
  | .enqueue span => if exporter.flushed then none else some (exporter.enqueue span)
  | .iterate => if exporter.phase = .looping then some exporter.iterate else none
  | .posted ok =>
      if exporter.phase = .exporting then
        some { exporter with
          phase := .looping
          backoff := if ok then initialBackoff else min (exporter.backoff * 2) kMaxBackoff }
      else none
  | .drain =>
      if exporter.phase = .leaving then
        some { exporter.handOver exporter.buffer.length with phase := .finished }
      else none
  | .stop => some { exporter with stop := true }
  | .flush =>
      if exporter.stop ∧ exporter.phase = .finished then
        some { exporter.handOver exporter.buffer.length with flushed := true }
      else none

/-! ## Conservation -/

/-- The spans that were handed to `do_export`. -/
def handed (exporter : Exporter) : List SpanData :=
  (exporter.removed.filter fun entry => entry.2 = .handed).map Prod.fst

/-- The worker only leaves its loop after the stop, and the buffer is flushed last. -/
structure Conserved (exporter : Exporter) : Prop where
  ledger : exporter.enqueued = exporter.removed.map Prod.fst ++ exporter.buffer
  batches : exporter.batches.flatMap Batch.spans = exporter.handed
  bounded : exporter.buffer.length ≤ kOtlpMaxBufferedSpans
  batchSize : ∀ batch ∈ exporter.batches, batch.stopped = false →
    batch.spans.length ≤ kOtlpBatchSize
  kept : exporter.endpointHost ≠ "" → ∀ entry ∈ exporter.removed, entry.2 ≠ .discarded
  left : exporter.phase = .leaving ∨ exporter.phase = .finished → exporter.stop = true
  emptied : exporter.flushed = true → exporter.buffer = []

variable {exporter next : Exporter}

theorem map_fst_fate (spans : List SpanData) (fate : Fate) :
    (spans.map fun span => (span, fate)).map Prod.fst = spans := by
  rw [List.map_map]
  exact List.map_id spans

theorem excess_append_boundSpans (spans : List SpanData) :
    excess spans ++ boundSpans spans = spans :=
  List.take_append_drop _ spans

theorem length_boundSpans (spans : List SpanData) :
    (boundSpans spans).length ≤ kOtlpMaxBufferedSpans := by
  rw [boundSpans, List.length_drop]
  omega

theorem completedSpans_enqueue (tracer : Tracer) (span : SpanData) :
    (tracer.enqueue span).completedSpans = boundSpans (tracer.completedSpans ++ [span]) := by
  simp only [Tracer.enqueue]

theorem removed_enqueue (exporter : Exporter) (span : SpanData) :
    (exporter.enqueue span).removed = exporter.removed ++
      (excess (exporter.buffer ++ [span])).map fun old => (old, .evicted) := by
  simp only [Exporter.enqueue]

theorem handed_append (removed more : List (SpanData × Fate)) :
    ((removed ++ more).filter fun entry => entry.2 = .handed).map Prod.fst =
      ((removed.filter fun entry => entry.2 = .handed).map Prod.fst) ++
        (more.filter fun entry => entry.2 = .handed).map Prod.fst := by
  rw [List.filter_append, List.map_append]

theorem handed_of_handed (spans : List SpanData) :
    ((spans.map fun span => (span, Fate.handed)).filter fun entry => entry.2 = .handed).map
      Prod.fst = spans := by
  rw [List.filter_eq_self.mpr (by simp), map_fst_fate]

theorem handed_of_ne {fate : Fate} (other : fate ≠ .handed) (spans : List SpanData) :
    ((spans.map fun span => (span, fate)).filter fun entry => entry.2 = .handed).map Prod.fst =
      [] := by
  rw [List.filter_eq_nil_iff.mpr (by simp [other]), List.map_nil]

namespace Conserved

theorem new (config : TraceConfig) (traceId endpointHost : String) :
    (Exporter.new config traceId endpointHost).Conserved := by
  constructor <;> simp [Exporter.new, Exporter.buffer, Exporter.handed, Tracer.new]

theorem ledger_remove (conserved : exporter.Conserved) (count : ℕ) (fate : Fate) :
    exporter.enqueued = (exporter.remove count fate).removed.map Prod.fst ++
      (exporter.remove count fate).buffer := by
  rw [conserved.ledger, remove, List.map_append, map_fst_fate, List.append_assoc]
  exact congrArg _ (List.take_append_drop count exporter.buffer).symm

theorem length_buffer_remove (conserved : exporter.Conserved) (count : ℕ) (fate : Fate) :
    (exporter.remove count fate).buffer.length ≤ kOtlpMaxBufferedSpans :=
  (List.drop_sublist count exporter.buffer).length_le.trans conserved.bounded

theorem kept_remove (conserved : exporter.Conserved) {fate : Fate}
    (proper : exporter.endpointHost ≠ "" → fate ≠ .discarded) (count : ℕ)
    (configured : exporter.endpointHost ≠ "") :
    ∀ entry ∈ (exporter.remove count fate).removed, entry.2 ≠ .discarded := by
  intro entry member
  rcases List.mem_append.mp member with old | new
  · exact conserved.kept configured entry old
  · obtain ⟨span, _, rfl⟩ := List.mem_map.mp new
    exact proper configured

/-- Spans are discarded only without an endpoint. -/
theorem discard (conserved : exporter.Conserved) (absent : exporter.endpointHost = "") (count : ℕ) :
    (exporter.remove count .discarded).Conserved where
  ledger := conserved.ledger_remove count .discarded
  batches := by
    rw [handed, remove, handed_append, handed_of_ne (by simp), List.append_nil]
    exact conserved.batches
  bounded := conserved.length_buffer_remove count .discarded
  batchSize := conserved.batchSize
  kept := conserved.kept_remove (fun configured => absurd absent configured) count
  left := conserved.left
  emptied := by
    intro flushed
    have empty := conserved.emptied flushed
    rw [Exporter.buffer, remove, empty, List.drop_nil]

/-- A batch of any size may be handed over once `stop_` is set, and before a small one. -/
theorem handOver (conserved : exporter.Conserved) (count : ℕ)
    (small : exporter.stop = false → count ≤ kOtlpBatchSize) :
    (exporter.handOver count).Conserved where
  ledger := conserved.ledger_remove count .handed
  batches := by
    simp only [Exporter.handOver, handed, remove, handed_append, handed_of_handed,
      List.flatMap_append, List.flatMap_singleton]
    rw [conserved.batches, handed]
  bounded := conserved.length_buffer_remove count .handed
  batchSize := by
    intro batch member running
    rcases List.mem_append.mp member with old | new
    · exact conserved.batchSize batch old running
    · rw [List.mem_singleton.mp new] at running ⊢
      exact (List.length_take_le count exporter.buffer).trans (small running)
  kept := conserved.kept_remove (fun _ => by simp) count
  left := conserved.left
  emptied := by
    intro flushed
    have empty := conserved.emptied flushed
    change exporter.buffer.drop count = []
    rw [empty, List.drop_nil]

/-- Only the buffer and the record of what went through it change. -/
theorem replace (conserved : exporter.Conserved) (unflushed : exporter.flushed = false)
    {tracer : Tracer} {enqueued : List SpanData} {gone : List SpanData}
    (ledger : exporter.enqueued ++ enqueued =
      exporter.removed.map Prod.fst ++ (gone ++ tracer.completedSpans))
    (bounded : tracer.completedSpans.length ≤ kOtlpMaxBufferedSpans) :
    Conserved { exporter with
      tracer := tracer
      enqueued := exporter.enqueued ++ enqueued
      removed := exporter.removed ++ gone.map fun old => (old, .evicted) } where
  ledger := by rw [ledger, List.map_append, map_fst_fate, List.append_assoc]
  batches := by
    rw [handed, handed_append, handed_of_ne (by simp), List.append_nil]
    exact conserved.batches
  bounded := bounded
  batchSize := conserved.batchSize
  kept := by
    intro configured entry member
    rcases List.mem_append.mp member with old | new
    · exact conserved.kept configured entry old
    · obtain ⟨evicted, _, rfl⟩ := List.mem_map.mp new
      simp
  left := conserved.left
  emptied := fun flushed => by cases unflushed.symm.trans flushed

theorem enqueue (conserved : exporter.Conserved) (unflushed : exporter.flushed = false)
    (span : SpanData) : (exporter.enqueue span).Conserved := by
  refine conserved.replace unflushed ?_ ?_
  · rw [completedSpans_enqueue, excess_append_boundSpans, conserved.ledger, List.append_assoc]
  · rw [completedSpans_enqueue]
    exact length_boundSpans _

theorem iterate (conserved : exporter.Conserved) : exporter.iterate.Conserved := by
  unfold Exporter.iterate
  split
  · rename_i leaves
    exact { conserved with left := fun _ => leaves.1 }
  · simp only
    split
    · rename_i absent
      exact conserved.discard absent _
    · have handed := conserved.handOver _ fun _ => min_le_left kOtlpBatchSize exporter.buffer.length
      exact { handed with left := by rintro (leaving | finished) <;> contradiction }

theorem step {action : Action} (conserved : exporter.Conserved)
    (taken : exporter.step action = some next) : next.Conserved := by
  cases action with
  | enqueue span =>
      simp only [Exporter.step] at taken
      split at taken
      · cases taken
      · rename_i unflushed
        cases taken
        exact conserved.enqueue (by simpa using unflushed) span
  | iterate =>
      simp only [Exporter.step] at taken
      split at taken
      · cases taken
        exact conserved.iterate
      · cases taken
  | posted ok =>
      simp only [Exporter.step] at taken
      split at taken
      · cases taken
        exact { conserved with left := by rintro (leaving | finished) <;> contradiction }
      · cases taken
  | drain =>
      simp only [Exporter.step] at taken
      split at taken
      · rename_i leaving
        cases taken
        have stopped := conserved.left (Or.inl leaving)
        have handed := conserved.handOver exporter.buffer.length fun running => by
          simp [stopped] at running
        exact { handed with left := fun _ => stopped }
      · cases taken
  | stop =>
      cases taken
      exact { conserved with left := fun _ => rfl }
  | flush =>
      simp only [Exporter.step] at taken
      split at taken
      · rename_i joined
        cases taken
        have handed := conserved.handOver exporter.buffer.length fun running => by
          simp [joined.1] at running
        exact { handed with emptied := fun _ => List.drop_length }
      · cases taken

end Conserved

theorem mem_excess {buffer : List SpanData} {span old : SpanData}
    (bounded : buffer.length ≤ kOtlpMaxBufferedSpans) (member : old ∈ excess (buffer ++ [span])) :
    buffer.length = kOtlpMaxBufferedSpans ∧ buffer.head? = some old := by
  have positive : 0 < kOtlpMaxBufferedSpans := by decide
  unfold excess at member
  generalize kOtlpMaxBufferedSpans = bound at *
  rcases Nat.lt_or_eq_of_le bounded with room | full
  · rw [List.length_append, List.length_singleton, Nat.sub_eq_zero_of_le room] at member
    simp at member
  · refine ⟨full, ?_⟩
    have one : (buffer ++ [span]).length - bound = 1 := by simp [full]
    rw [one] at member
    cases buffer with
    | nil => simp at full; omega
    | cons first rest => simpa [eq_comm] using member

/-- A span is evicted only by `enqueue`, when the buffer is full, and it is the oldest one
there. -/
theorem removed_step {action : Action} (conserved : exporter.Conserved)
    (taken : exporter.step action = some next) :
    ∃ gone, next.removed = exporter.removed ++ gone ∧
      ∀ old, (old, Fate.evicted) ∈ gone →
        (∃ span, action = .enqueue span) ∧
          exporter.buffer.length = kOtlpMaxBufferedSpans ∧ exporter.buffer.head? = some old := by
  have other (count : ℕ) {fate : Fate} (different : fate ≠ .evicted) (old : SpanData) :
      (old, Fate.evicted) ∉ (exporter.buffer.take count).map fun span => (span, fate) := by
    intro member
    obtain ⟨_, _, equal⟩ := List.mem_map.mp member
    exact different (Prod.mk.inj equal).2
  cases action with
  | enqueue span =>
      simp only [step] at taken
      split at taken
      · cases taken
      · rw [← Option.some.inj taken]
        refine ⟨_, removed_enqueue exporter span, ?_⟩
        intro old member
        obtain ⟨_, inside, equal⟩ := List.mem_map.mp member
        rw [← (Prod.mk.inj equal).1]
        exact ⟨⟨span, rfl⟩, mem_excess conserved.bounded inside⟩
  | iterate =>
      simp only [step, iterate] at taken
      split at taken
      · split at taken
        · cases taken
          exact ⟨[], (List.append_nil _).symm, by simp⟩
        · split at taken
          · cases taken
            exact ⟨_, rfl, fun old member => absurd member (other _ (by simp) old)⟩
          · cases taken
            exact ⟨_, rfl, fun old member => absurd member (other _ (by simp) old)⟩
      · cases taken
  | posted ok =>
      simp only [step] at taken
      split at taken
      · cases taken
        exact ⟨[], (List.append_nil _).symm, by simp⟩
      · cases taken
  | drain | flush =>
      simp only [step] at taken
      split at taken
      · cases taken
        exact ⟨_, rfl, fun old member => absurd member (other _ (by simp) old)⟩
      · cases taken
  | stop =>
      cases taken
      exact ⟨[], (List.append_nil _).symm, by simp⟩

theorem conserved_of_reaches {config : TraceConfig} {traceId endpointHost : String}
    (reachable : Reaches step Unrestricted (.new config traceId endpointHost) exporter) :
    exporter.Conserved :=
  reachable.invariant Conserved (.new config traceId endpointHost)
    fun _ _ _ conserved _ taken => conserved.step taken

theorem endpointHost_replace (exporter : Exporter) (tracer : Tracer) (enqueued : List SpanData)
    (removed : List (SpanData × Fate)) :
    ({ exporter with tracer := tracer, enqueued := enqueued, removed := removed } :
      Exporter).endpointHost = exporter.endpointHost :=
  rfl

theorem endpointHost_step {action : Action} (taken : exporter.step action = some next) :
    next.endpointHost = exporter.endpointHost := by
  cases action with
  | enqueue span =>
      simp only [step] at taken
      split at taken
      · cases taken
      · rw [← Option.some.inj taken]
        exact endpointHost_replace exporter _ _ _
  | iterate =>
      simp only [step, iterate] at taken
      split at taken
      · rw [← Option.some.inj taken]
        split
        · rfl
        · split <;> rfl
      · cases taken
  | posted ok | drain | flush =>
      simp only [step] at taken
      split at taken
      · cases taken
        rfl
      · cases taken
  | stop =>
      cases taken
      rfl

/-- With an endpoint, at every moment the spans that were enqueued are, in their order,
those that have left the buffer, each of them evicted or handed to `do_export`, and those
that are still in it.  What was handed over are the batches one after the other, which are
small until the stop.  A span is only evicted from a full buffer, as the oldest one.  The
destructor leaves the buffer empty. -/
theorem reachable_spans_conserved {config : TraceConfig} {traceId endpointHost : String}
    (configured : endpointHost ≠ "")
    (reachable : Reaches step Unrestricted (.new config traceId endpointHost) exporter) :
    exporter.buffer.length ≤ kOtlpMaxBufferedSpans ∧
      exporter.enqueued = exporter.removed.map Prod.fst ++ exporter.buffer ∧
      (∀ entry ∈ exporter.removed, entry.2 = .evicted ∨ entry.2 = .handed) ∧
      exporter.batches.flatMap Batch.spans =
        (exporter.removed.filter fun entry => entry.2 = .handed).map Prod.fst ∧
      (∀ batch ∈ exporter.batches, batch.stopped = false →
        batch.spans.length ≤ kOtlpBatchSize) ∧
      (exporter.flushed → exporter.buffer = []) ∧
      (∀ action next, exporter.step action = some next →
        ∃ gone, next.removed = exporter.removed ++ gone ∧
          ∀ old, (old, Fate.evicted) ∈ gone →
            (∃ span, action = .enqueue span) ∧
              exporter.buffer.length = kOtlpMaxBufferedSpans ∧
              exporter.buffer.head? = some old) := by
  have conserved := conserved_of_reaches reachable
  have host : exporter.endpointHost = endpointHost :=
    reachable.invariant (fun state => state.endpointHost = endpointHost) rfl
      fun _ _ _ same _ taken => (endpointHost_step taken).trans same
  refine ⟨conserved.bounded, conserved.ledger, ?_, conserved.batches, conserved.batchSize,
    conserved.emptied, fun _ _ taken => removed_step conserved taken⟩
  intro entry member
  have kept := conserved.kept (host ▸ configured) entry member
  cases fate : entry.2 with
  | evicted => exact Or.inl rfl
  | handed => exact Or.inr rfl
  | discarded => exact absurd fate kept

/-- Two spans; one is handed over by the loop and one after it.  The destructor then finds
nothing. -/
theorem reachable_spans_conserved_two_spans :
    ∃ exporter : Exporter, Reaches step Unrestricted (.new {} "trace" "collector") exporter ∧
      exporter.batches.map (fun batch => batch.spans.map SpanData.name) = [["a"], ["b"], []] ∧
      exporter.enqueued.map SpanData.name = ["a", "b"] ∧ exporter.buffer = [] := by
  let span (name : String) : SpanData := ⟨name, "trace", name, "", 0, 1, ∅⟩
  have evaluated :
      (run step (.new {} "trace" "collector")
        [.enqueue (span "a"), .iterate, .stop, .posted false, .iterate, .enqueue (span "b"),
          .drain, .flush]).map
        (fun exporter => (exporter.batches.map (fun batch => batch.spans.map SpanData.name),
          exporter.enqueued.map SpanData.name, exporter.flushed)) =
        some ([["a"], ["b"], []], ["a", "b"], true) := by
    decide +kernel
  obtain ⟨exporter, executes, seen⟩ := Option.map_eq_some_iff.mp evaluated
  simp only [Prod.mk.injEq] at seen
  have reaches := reaches_of_run executes
  have conserved := reachable_spans_conserved (by decide) reaches
  exact ⟨exporter, reaches, seen.1, seen.2.1, conserved.2.2.2.2.2.1 seen.2.2⟩

end Exporter

end Cppload.Otel
