import Cppload.Tracer

/-!
# The spans of one thread

The calls of one thread cut its time into the lifetimes of spans.  A span should carry the
attributes that were added during its lifetime.  An attribute that is added while no span is
active stays in the map, and the next span begins with it.
-/

namespace Cppload.Otel

/-! ## What should be enqueued -/

/-- The lifetime of a span: its name and its id, the attributes that were left behind
before it, and those that were added to it. -/
structure Lifetime where
  name : String
  id : String
  strays : List (String × String)
  added : List (String × String)

/-- Between two calls either no span is active, or one is. -/
inductive SpanPhase where
  | idle (strays : List (String × String))
  | active (lifetime : Lifetime)

namespace SpanPhase

/-- The span that a call ends. -/
def ended : SpanPhase → Call → Option Lifetime
  | .active lifetime, .startSpan _ => some lifetime
  | .active lifetime, .endSpan => some lifetime
  | _, _ => none

def next : SpanPhase → Chance → Call → SpanPhase
  | .idle strays, chance, .startSpan name => .active ⟨name, chance.hex, strays, []⟩
  | .active _, chance, .startSpan name => .active ⟨name, chance.hex, [], []⟩
  | .idle strays, _, .addAttribute key value => .idle (strays ++ [(key, value)])
  | .active lifetime, _, .addAttribute key value =>
      .active { lifetime with added := lifetime.added ++ [(key, value)] }
  | .idle strays, _, .endSpan => .idle strays
  | .active _, _, .endSpan => .idle []

end SpanPhase

/-- The lifetimes that the calls end, in order. -/
def lifetimes : SpanPhase → List (Call × Chance) → List Lifetime
  | _, [] => []
  | phase, (call, chance) :: rest =>
      (phase.ended call).toList ++ lifetimes (phase.next chance call) rest

/-- The tracer after a call, with the span enqueued. -/
def Tracer.after (tracer : Tracer) (chance : Chance) (call : Call) : Tracer :=
  (tracer.call chance call).2.elim (tracer.call chance call).1
    (tracer.call chance call).1.enqueue

/-- The spans that the calls enqueue, in order. -/
def Tracer.enqueuedBy : Tracer → List (Call × Chance) → List SpanData
  | _, [] => []
  | tracer, (call, chance) :: rest =>
      (tracer.call chance call).2.toList ++ (tracer.after chance call).enqueuedBy rest

/-- The attributes a span should carry. -/
def Lifetime.attributes (config : TraceConfig) (lifetime : Lifetime) : List (String × String) :=
  config.attributes ++ lifetime.added

/-- A span is that of a lifetime and carries exactly its attributes. -/
structure Lifetime.Carried (config : TraceConfig) (span : SpanData) (lifetime : Lifetime) :
    Prop where
  name : span.name = lifetime.name
  id : span.spanId = lifetime.id
  attributes : ∀ key,
    span.attributes.lookup key = (Table.ofList (lifetime.attributes config)).lookup key

/-- The ids with which the spans are to be linked. -/
def parentIds (first : String) (spans : List SpanData) : List String :=
  (first :: spans.map SpanData.spanId).take spans.length

/-- One span for every lifetime, in order, each linked to the one before it. -/
structure SpansKept (config : TraceConfig) (spans : List SpanData) (lives : List Lifetime) :
    Prop where
  carried : List.Forall₂ (Lifetime.Carried config) spans lives
  linked : spans.map SpanData.parentSpanId = parentIds "" spans

/-! ## What is enqueued -/

/-- A span as it is enqueued, with the strays. -/
structure Lifetime.Recorded (config : TraceConfig) (span : SpanData) (lifetime : Lifetime) :
    Prop where
  name : span.name = lifetime.name
  id : span.spanId = lifetime.id
  attributes : span.attributes = .ofList (lifetime.strays ++ lifetime.attributes config)

/-- What the tracer holds in a phase. -/
structure SpanPhase.Held (config : TraceConfig) (tracer : Tracer) (phase : SpanPhase) : Prop where
  config_eq : tracer.config = config
  held : match phase with
    | .idle strays => tracer.spanActive = false ∧ tracer.attributes = .ofList strays
    | .active lifetime => tracer.spanActive = true ∧ tracer.parentSpanId = tracer.lastSpanId ∧
        lifetime.Recorded config (tracer.currentSpan 0)

/-- What a call enqueues and the lifetime that it ends.  A span that is enqueued is linked
to the last one. -/
inductive SpanPhase.Closes (config : TraceConfig) (before after : Tracer) :
    Option SpanData → Option Lifetime → Prop where
  | nothing : after.lastSpanId = before.lastSpanId → Closes config before after none none
  | span {span : SpanData} {lifetime : Lifetime} : lifetime.Recorded config span →
      span.parentSpanId = before.lastSpanId → after.lastSpanId = span.spanId →
      Closes config before after (some span) (some lifetime)

section Calls

variable {config : TraceConfig} {tracer : Tracer} {phase : SpanPhase}

/-- The clock has no part in what is recorded. -/
theorem Lifetime.Recorded.at_time {lifetime : Lifetime}
    (recorded : lifetime.Recorded config (tracer.currentSpan 0)) (now : ℤ) :
    lifetime.Recorded config (tracer.currentSpan now) :=
  ⟨recorded.name, recorded.id, recorded.attributes⟩

/-- The spans that wait for export play no part. -/
theorem SpanPhase.Held.withSpans (held : phase.Held config tracer) (spans : List SpanData) :
    phase.Held config { tracer with completedSpans := spans } := by
  obtain ⟨config_eq, held⟩ := held
  cases phase with
  | idle strays => exact ⟨config_eq, held⟩
  | active lifetime =>
      obtain ⟨active, linked, recorded⟩ := held
      exact ⟨config_eq, active, linked, recorded.name, recorded.id, recorded.attributes⟩

theorem lastSpanId_withSpans (tracer : Tracer) (spans : List SpanData) :
    ({ tracer with completedSpans := spans } : Tracer).lastSpanId = tracer.lastSpanId :=
  rfl

theorem openSpan_recorded (config_eq : tracer.config = config)
    {strays : List (String × String)} (attributes : tracer.attributes = .ofList strays)
    (name : String) (chance : Chance) :
    Lifetime.Recorded config ((tracer.openSpan name chance).currentSpan 0)
      ⟨name, chance.hex, strays, []⟩ := by
  refine ⟨rfl, rfl, ?_⟩
  have pairs : strays ++ Lifetime.attributes config ⟨name, chance.hex, strays, []⟩ =
      strays ++ [("service.name", config.serviceName)] ++
        [("service.version", config.serviceVersion)] := by
    simp [Lifetime.attributes, TraceConfig.attributes]
  rw [pairs, Table.ofList_concat, Table.ofList_concat, ← attributes, ← config_eq]
  rfl

theorem SpanPhase.Held.startSpan (held : phase.Held config tracer) (sampled : 1 ≤ config.sampleRate)
    (name : String) (chance : Chance) :
    (phase.next chance (.startSpan name)).Held config (tracer.after chance (.startSpan name)) ∧
      SpanPhase.Closes config tracer (tracer.after chance (.startSpan name))
        (tracer.call chance (.startSpan name)).2 (phase.ended (.startSpan name)) := by
  obtain ⟨config_eq, held⟩ := held
  cases phase with
  | idle strays =>
      obtain ⟨inactive, attributes⟩ := held
      simp only [Tracer.after, Tracer.call, Tracer.startSpan, inactive, Bool.false_eq_true,
        if_false, Option.elim_none]
      exact ⟨⟨config_eq, rfl, rfl, openSpan_recorded config_eq attributes name chance⟩,
        .nothing rfl⟩
  | active lifetime =>
      obtain ⟨active, linked, recorded⟩ := held
      have always : (1 ≤ tracer.config.sampleRate || chance.drawn) = true := by
        simp [config_eq, sampled]
      simp only [Tracer.after, Tracer.call, Tracer.startSpan, active, always, if_true,
        Option.elim_some]
      have opened := @openSpan_recorded config tracer.closeSpan config_eq [] rfl name chance
      have heldNext : (SpanPhase.active ⟨name, chance.hex, [], []⟩).Held config
          (tracer.closeSpan.openSpan name chance) := ⟨config_eq, rfl, rfl, opened⟩
      exact ⟨heldNext.withSpans _,
        .span (recorded.at_time _) linked (lastSpanId_withSpans _ _)⟩

theorem SpanPhase.Held.addAttribute (held : phase.Held config tracer) (key value : String)
    (chance : Chance) :
    (phase.next chance (.addAttribute key value)).Held config
        (tracer.after chance (.addAttribute key value)) ∧
      SpanPhase.Closes config tracer (tracer.after chance (.addAttribute key value))
        (tracer.call chance (.addAttribute key value)).2
        (phase.ended (.addAttribute key value)) := by
  obtain ⟨config_eq, held⟩ := held
  cases phase with
  | idle strays =>
      obtain ⟨inactive, attributes⟩ := held
      refine ⟨⟨config_eq, inactive, ?_⟩, .nothing rfl⟩
      rw [Table.ofList_concat, ← attributes]
      rfl
  | active lifetime =>
      obtain ⟨active, linked, recorded⟩ := held
      refine ⟨⟨config_eq, active, linked, recorded.name, recorded.id, ?_⟩, .nothing rfl⟩
      have pairs : lifetime.strays ++ (config.attributes ++ (lifetime.added ++ [(key, value)])) =
          lifetime.strays ++ (config.attributes ++ lifetime.added) ++ [(key, value)] := by
        simp
      rw [Lifetime.attributes, pairs, Table.ofList_concat]
      exact congrArg (AList.insert key value) recorded.attributes

theorem SpanPhase.Held.endSpan (held : phase.Held config tracer) (sampled : 1 ≤ config.sampleRate)
    (chance : Chance) :
    (phase.next chance .endSpan).Held config (tracer.after chance .endSpan) ∧
      SpanPhase.Closes config tracer (tracer.after chance .endSpan)
        (tracer.call chance .endSpan).2 (phase.ended .endSpan) := by
  obtain ⟨config_eq, held⟩ := held
  cases phase with
  | idle strays =>
      obtain ⟨inactive, attributes⟩ := held
      simp only [Tracer.after, Tracer.call, Tracer.endSpan, inactive, Bool.false_eq_true,
        if_false, Option.elim_none]
      exact ⟨⟨config_eq, inactive, attributes⟩, .nothing rfl⟩
  | active lifetime =>
      obtain ⟨active, linked, recorded⟩ := held
      have always : (tracer.config.sampleRate < 1 && !chance.drawn) = false := by
        simp [config_eq, not_lt.mpr sampled]
      simp only [Tracer.after, Tracer.call, Tracer.endSpan, active, always, if_true,
        Bool.false_eq_true, if_false, Option.elim_some]
      have heldNext : (SpanPhase.idle []).Held config tracer.closeSpan := ⟨config_eq, rfl, rfl⟩
      exact ⟨heldNext.withSpans _,
        .span (recorded.at_time _) linked (lastSpanId_withSpans _ _)⟩

theorem SpanPhase.Held.call (held : phase.Held config tracer) (sampled : 1 ≤ config.sampleRate)
    (chance : Chance) (call : Call) :
    (phase.next chance call).Held config (tracer.after chance call) ∧
      SpanPhase.Closes config tracer (tracer.after chance call) (tracer.call chance call).2
        (phase.ended call) := by
  cases call with
  | startSpan name => exact held.startSpan sampled name chance
  | addAttribute key value => exact held.addAttribute key value chance
  | endSpan => exact held.endSpan sampled chance

/-- The spans are those of the lifetimes, each linked to the one before it. -/
theorem SpanPhase.Held.enqueuedBy (held : phase.Held config tracer)
    (sampled : 1 ≤ config.sampleRate) (calls : List (Call × Chance)) :
    List.Forall₂ (Lifetime.Recorded config) (tracer.enqueuedBy calls) (lifetimes phase calls) ∧
      (tracer.enqueuedBy calls).map SpanData.parentSpanId =
        parentIds tracer.lastSpanId (tracer.enqueuedBy calls) := by
  induction calls generalizing tracer phase with
  | nil => exact ⟨.nil, rfl⟩
  | cons entry calls induction =>
      obtain ⟨call, chance⟩ := entry
      obtain ⟨later, closes⟩ := held.call sampled chance call
      obtain ⟨recorded, linked⟩ := induction later
      rw [Tracer.enqueuedBy, lifetimes]
      generalize (tracer.call chance call).2 = enqueued at closes
      generalize phase.ended call = ended at closes
      cases closes with
      | nothing same =>
          rw [same] at linked
          exact ⟨recorded, linked⟩
      | span closed parent last =>
          refine ⟨.cons closed recorded, ?_⟩
          rw [last] at linked
          simp only [Option.toList_some, List.cons_append, List.nil_append, List.map_cons, parent,
            linked, parentIds, List.length_cons, List.take_succ_cons]

end Calls

theorem Lifetime.carried_iff {config : TraceConfig} {span : SpanData} {lifetime : Lifetime}
    (recorded : lifetime.Recorded config span) :
    lifetime.Carried config span ↔
      ∀ key ∈ lifetime.strays.map Prod.fst, key ∈ (lifetime.attributes config).map Prod.fst := by
  rw [← Table.lookup_ofList_append_eq_iff, ← recorded.attributes]
  exact ⟨fun carried => carried.attributes, fun same => ⟨recorded.name, recorded.id, same⟩⟩

theorem forall₂_carried_iff {config : TraceConfig} {spans : List SpanData} {lives : List Lifetime}
    (recorded : List.Forall₂ (Lifetime.Recorded config) spans lives) :
    List.Forall₂ (Lifetime.Carried config) spans lives ↔
      ∀ lifetime ∈ lives, ∀ key ∈ lifetime.strays.map Prod.fst,
        key ∈ (lifetime.attributes config).map Prod.fst := by
  induction recorded with
  | nil => simp
  | cons first _ induction =>
      rw [List.forall₂_cons, Lifetime.carried_iff first, induction, List.forall_mem_cons]

/-- The spans of one thread carry their own attributes, unless an attribute is added while no
span is active whose key the next span does not set. -/
theorem enqueuedBy_kept_iff (config : TraceConfig) (traceId : String)
    (sampled : 1 ≤ config.sampleRate) (calls : List (Call × Chance)) :
    SpansKept config ((Tracer.new config traceId).enqueuedBy calls) (lifetimes (.idle []) calls) ↔
      ∀ lifetime ∈ lifetimes (.idle []) calls, ∀ key ∈ lifetime.strays.map Prod.fst,
        key ∈ (config.attributes ++ lifetime.added).map Prod.fst := by
  have start : SpanPhase.Held config (Tracer.new config traceId) (.idle []) := ⟨rfl, rfl, rfl⟩
  obtain ⟨recorded, linked⟩ := start.enqueuedBy sampled calls
  have carried := forall₂_carried_iff recorded
  exact ⟨fun kept => carried.mp kept.carried, fun own => ⟨carried.mpr own, linked⟩⟩

/-- A key that is added before and inside the span, with a second span that is ended by the
start of a third. -/
theorem enqueuedBy_kept_again :
    SpansKept {} ((Tracer.new {} "trace").enqueuedBy
        [(.addAttribute "user" "a", ⟨0, 0, "", true⟩), (.startSpan "one", ⟨1, 1, "01", true⟩),
          (.addAttribute "user" "b", ⟨2, 2, "", true⟩), (.endSpan, ⟨3, 3, "", true⟩),
          (.startSpan "two", ⟨4, 4, "02", true⟩), (.startSpan "three", ⟨5, 5, "03", true⟩)])
      [⟨"one", "01", [("user", "a")], [("user", "b")]⟩, ⟨"two", "02", [], []⟩] :=
  (enqueuedBy_kept_iff {} "trace" le_rfl _).mpr (by decide)

/-- An attribute that is added before the span is enqueued with it. -/
theorem enqueuedBy_stray :
    ((Tracer.new {} "trace").enqueuedBy
        [(.addAttribute "user" "a", ⟨0, 0, "", true⟩), (.startSpan "one", ⟨1, 1, "01", true⟩),
          (.endSpan, ⟨2, 2, "", true⟩)]).map
        (fun span => (span.name, span.attributes.lookup "user")) = [("one", some "a")] := by
  decide +kernel

end Cppload.Otel
