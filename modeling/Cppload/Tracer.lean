import Cppload.TransitionSystem
import Cppload.Table
import Cppload.Roster

/-!
# The tracer

`otel::Tracer` has one current span for all its users.  `start_span` closes the
current span, whoever started it, attributes go to the current span, and
`end_span` closes it.  Every call is one step; clock readings, random ids and the
draw of the sampler are the environment's choice.

The command line tool wraps every answered request in a span: a callback starts a
span, adds four attributes and ends the span.  Callbacks of different requests run
on different worker threads and share one tracer.
-/

namespace Cppload.Otel

open Transition

/-- `TraceConfig`, as far as spans depend on it. -/
structure TraceConfig where
  sampleRate : ℚ := 1
  serviceName : String := "volley"
  serviceVersion : String := "1.1.0"

/-- `SpanData`; times are nanoseconds. -/
structure SpanData where
  name : String
  traceId : String
  spanId : String
  parentSpanId : String
  startTime : ℤ
  endTime : ℤ
  attributes : Table String String
  deriving DecidableEq

structure Tracer where
  config : TraceConfig
  spanName : String
  attributes : Table String String
  spanActive : Bool
  traceId : String
  currentSpanId : String
  parentSpanId : String
  lastSpanId : String
  spanStart : ℤ
  completedSpans : List SpanData

def kOtlpMaxBufferedSpans : ℕ :=
  4096

/-- Drop the oldest spans when there are too many. -/
def boundSpans (spans : List SpanData) : List SpanData :=
  spans.drop (spans.length - kOtlpMaxBufferedSpans)

/-- What a call reads from outside: the clock when a span is closed, the clock when
one is started, `random_hex(16)`, and whether `dist(rng) <= sample_rate`. -/
structure Chance where
  now : ℤ
  later : ℤ
  hex : String
  drawn : Bool
  deriving DecidableEq, Repr

namespace Tracer

/-- The constructor, with the random trace id. -/
def new (config : TraceConfig) (traceId : String) : Tracer where
  config := config
  spanName := ""
  attributes := ∅
  spanActive := false
  traceId := traceId
  currentSpanId := ""
  parentSpanId := ""
  lastSpanId := ""
  spanStart := 0
  completedSpans := []

def currentSpan (tracer : Tracer) (now : ℤ) : SpanData where
  name := tracer.spanName
  traceId := tracer.traceId
  spanId := tracer.currentSpanId
  parentSpanId := tracer.parentSpanId
  startTime := tracer.spanStart
  endTime := now
  attributes := tracer.attributes

def closeSpan (tracer : Tracer) : Tracer :=
  { tracer with
    lastSpanId := tracer.currentSpanId
    attributes := ∅
    spanActive := false }

/-- The second half of the critical section of `start_span`. -/
def openSpan (tracer : Tracer) (name : String) (chance : Chance) : Tracer :=
  { tracer with
    spanName := name
    spanActive := true
    spanStart := chance.later
    currentSpanId := chance.hex
    parentSpanId := tracer.lastSpanId
    attributes :=
      AList.insert "service.version" tracer.config.serviceVersion
        (AList.insert "service.name" tracer.config.serviceName tracer.attributes) }

/-- `start_span`, with the span to be enqueued. -/
def startSpan (tracer : Tracer) (name : String) (chance : Chance) :
    Tracer × Option SpanData :=
  if tracer.spanActive then
    (tracer.closeSpan.openSpan name chance,
      if 1 ≤ tracer.config.sampleRate || chance.drawn then
        some (tracer.currentSpan chance.now)
      else none)
  else
    (tracer.openSpan name chance, none)

/-- `end_span`, with the span to be enqueued. -/
def endSpan (tracer : Tracer) (chance : Chance) : Tracer × Option SpanData :=
  if tracer.spanActive then
    (tracer.closeSpan,
      if tracer.config.sampleRate < 1 && !chance.drawn then none
      else some (tracer.currentSpan chance.now))
  else
    (tracer, none)

def addAttribute (tracer : Tracer) (key value : String) : Tracer :=
  { tracer with attributes := AList.insert key value tracer.attributes }

def enqueue (tracer : Tracer) (span : SpanData) : Tracer :=
  { tracer with completedSpans := boundSpans (tracer.completedSpans ++ [span]) }

end Tracer

inductive Call where
  | startSpan (name : String)
  | addAttribute (key value : String)
  | endSpan
  deriving DecidableEq, Repr

def Tracer.call (tracer : Tracer) (chance : Chance) : Call → Tracer × Option SpanData
  | .startSpan name => tracer.startSpan name chance
  | .addAttribute key value => (tracer.addAttribute key value, none)
  | .endSpan => tracer.endSpan chance

/-- The request and the answer that a callback reports. -/
structure Callback where
  method : String
  path : String
  statusCode : ℕ
  latency : ℤ
  deriving DecidableEq, Repr

namespace Callback

def name (callback : Callback) : String :=
  callback.method ++ " " ++ callback.path

/-- The attributes of the span, in the order they are added. -/
def attributes (callback : Callback) : List (String × String) :=
  [("http.method", callback.method), ("http.url", callback.path),
    ("http.status_code", toString callback.statusCode),
    ("http.latency_us", toString callback.latency)]

/-- The calls that both callbacks of the command line tool make. -/
def calls (callback : Callback) : List Call :=
  [.startSpan callback.name] ++
    (callback.attributes.map fun pair => .addAttribute pair.1 pair.2) ++
    [.endSpan]

end Callback

/-- A callback and the number of calls it has made. -/
structure Running where
  callback : Callback
  position : ℕ
  deriving DecidableEq, Repr

/-- The tracer, the callbacks that have begun, and all spans ever enqueued. -/
structure System where
  tracer : Tracer
  running : List Running
  enqueued : List SpanData

/-- A callback begins, or one of them makes its next call. -/
inductive Action where
  | begin (callback : Callback)
  | call (index : ℕ) (chance : Chance)

def System.new (config : TraceConfig) (traceId : String) : System where
  tracer := .new config traceId
  running := []
  enqueued := []

def System.step (system : System) : Action → Option System
  | .begin callback =>
      some { system with running := system.running ++ [⟨callback, 0⟩] }
  | .call index chance =>
      system.running[index]?.bind fun entry =>
        entry.callback.calls[entry.position]?.map fun call =>
          let result := system.tracer.call chance call
          { tracer := result.2.elim result.1 result.1.enqueue
            running := system.running.set index
              { entry with position := entry.position + 1 }
            enqueued := system.enqueued ++ result.2.toList }

namespace Running

/-- The callback has started its span and not ended it. -/
def isOpen (entry : Running) : Bool :=
  0 < entry.position && entry.position < 6

def finished (entry : Running) : Bool :=
  6 ≤ entry.position

end Running

/-- No callback starts its span while another one is between its `start_span` and
its `end_span`. -/
def System.Alone (system : System) : Action → Prop
  | .begin _ => True
  | .call index _ =>
      ∀ entry ∈ system.running[index]?, entry.position = 0 →
        ∀ other ∈ system.running, other.isOpen = false

/-- The attributes that `start_span` sets. -/
def TraceConfig.attributes (config : TraceConfig) : List (String × String) :=
  [("service.name", config.serviceName), ("service.version", config.serviceVersion)]

/-- What the span of a callback carries: its name, its four attributes and those of
the service. -/
def Callback.content (config : TraceConfig) (callback : Callback) :
    String × Table String String :=
  (callback.name, .ofList (config.attributes ++ callback.attributes))

/-- The attributes of an open span so far. -/
def Running.collected (config : TraceConfig) (entry : Running) : Table String String :=
  .ofList (config.attributes ++ entry.callback.attributes.take (entry.position - 1))

def SpanData.content (span : SpanData) : String × Table String String :=
  (span.name, span.attributes)

/-- The call that follows a number of calls made. -/
inductive NextCall (callback : Callback) : ℕ → Call → Prop
  | start : NextCall callback 0 (.startSpan callback.name)
  | add (count : ℕ) (pair : String × String)
      (found : callback.attributes[count]? = some pair) :
      NextCall callback (count + 1) (.addAttribute pair.1 pair.2)
  | finish : NextCall callback 5 .endSpan

theorem nextCall_of_getElem? {callback : Callback} {position : ℕ} {call : Call}
    (found : callback.calls[position]? = some call) : NextCall callback position call := by
  match position with
  | 0 => exact Option.some.inj found ▸ .start
  | 1 | 2 | 3 | 4 => exact Option.some.inj found ▸ .add _ _ rfl
  | 5 => exact Option.some.inj found ▸ .finish
  | position + 6 => cases found

/-- At most one callback has its span open, and the current span of the tracer is
the one it opened. -/
inductive Tracked (config : TraceConfig) (tracer : Tracer) (running : List Running) : Prop
  | idle (closed : ∀ entry ∈ running, entry.isOpen = false)
      (inactive : tracer.spanActive = false) (empty : tracer.attributes = ∅)
  | active (index : ℕ) (entry : Running) (found : running[index]? = some entry)
      (isOpen : entry.isOpen = true)
      (others : ∀ (other : ℕ) (closed : Running), other ≠ index →
        running[other]? = some closed → closed.isOpen = false)
      (spanActive : tracer.spanActive = true)
      (spanName : tracer.spanName = entry.callback.name)
      (attributes : tracer.attributes = entry.collected config)

/-- What a callback that has returned leaves in the export queue. -/
def Running.reported (config : TraceConfig) (entry : Running) :
    Option (String × Table String String) :=
  if entry.finished then some (entry.callback.content config) else none

/-- Every callback that has returned has enqueued its own span, and nothing else
was enqueued. -/
structure System.Orderly (config : TraceConfig) (system : System) : Prop where
  config_eq : system.tracer.config = config
  tracked : Tracked config system.tracer system.running
  booked : (system.enqueued.map SpanData.content).Perm
    (system.running.filterMap (Running.reported config))

section Calls

variable {config : TraceConfig} {tracer : Tracer} {running : List Running} {index : ℕ}
variable {entry : Running}

theorem Tracked.concat (tracked : Tracked config tracer running) (callback : Callback) :
    Tracked config tracer (running ++ [⟨callback, 0⟩]) := by
  cases tracked with
  | idle closed inactive empty =>
      refine .idle ?_ inactive empty
      intro other member
      rcases List.mem_append.mp member with old | new
      · exact closed other old
      · rw [List.mem_singleton.mp new]
        rfl
  | active index entry found isOpen others spanActive spanName attributes =>
      refine .active index entry ?_ isOpen ?_ spanActive spanName attributes
      · obtain ⟨within, -⟩ := List.getElem?_eq_some_iff.mp found
        rw [List.getElem?_append_left within]
        exact found
      · intro other closed distinct located
        rcases Roster.getElem?_concat_cases located with old | ⟨-, rfl⟩
        · exact others other closed distinct old
        · rfl

/-- The callback whose span is open is the one the tracer works for. -/
theorem Tracked.owner (tracked : Tracked config tracer running)
    (found : running[index]? = some entry) (isOpen : entry.isOpen = true) :
    (∀ (other : ℕ) (closed : Running), other ≠ index → running[other]? = some closed →
      closed.isOpen = false) ∧
      tracer.spanActive = true ∧ tracer.spanName = entry.callback.name ∧
        tracer.attributes = entry.collected config := by
  cases tracked with
  | idle closed => simp [closed entry (List.mem_of_getElem? found)] at isOpen
  | active holder held holderFound holderOpen others spanActive spanName attributes =>
      have same : index = holder := by
        by_contra distinct
        simp [others index entry distinct found] at isOpen
      subst same
      have heldEq : held = entry := Option.some.inj (holderFound.symm.trans found)
      subst heldEq
      exact ⟨others, spanActive, spanName, attributes⟩

theorem Tracked.of_closed (tracked : Tracked config tracer running)
    (closed : ∀ entry ∈ running, entry.isOpen = false) :
    tracer.spanActive = false ∧ tracer.attributes = ∅ := by
  cases tracked with
  | idle _ inactive empty => exact ⟨inactive, empty⟩
  | active index entry found isOpen =>
      simp [closed entry (List.mem_of_getElem? found)] at isOpen

/-- A callback moves on with its span open. -/
theorem Tracked.set_active {next : Tracer} {moved : Running}
    (found : running[index]? = some entry) (isOpen : moved.isOpen = true)
    (others : ∀ (other : ℕ) (closed : Running), other ≠ index →
      running[other]? = some closed → closed.isOpen = false)
    (spanActive : next.spanActive = true) (spanName : next.spanName = moved.callback.name)
    (attributes : next.attributes = moved.collected config) :
    Tracked config next (running.set index moved) := by
  refine .active index moved (Roster.getElem?_set_self found) isOpen ?_ spanActive spanName
    attributes
  intro other closed distinct located
  rcases Roster.getElem?_set_cases located with ⟨same, -⟩ | ⟨-, old⟩
  · exact absurd same distinct
  · exact others other closed distinct old

end Calls

/-- The spans that wait for export play no part in tracking. -/
theorem Tracked.withSpans {config : TraceConfig} {tracer : Tracer} {running : List Running}
    (tracked : Tracked config tracer running) (spans : List SpanData) :
    Tracked config { tracer with completedSpans := spans } running := by
  cases tracked with
  | idle closed inactive empty => exact .idle closed inactive empty
  | active index entry found isOpen others spanActive spanName attributes =>
      exact .active index entry found isOpen others spanActive spanName attributes

/-- The system after a callback has made a call. -/
def System.called (system : System) (index : ℕ) (entry : Running) (call : Call)
    (chance : Chance) : System where
  tracer := (system.tracer.call chance call).2.elim (system.tracer.call chance call).1
    (system.tracer.call chance call).1.enqueue
  running := system.running.set index { entry with position := entry.position + 1 }
  enqueued := system.enqueued ++ (system.tracer.call chance call).2.toList

namespace System.Orderly

variable {config : TraceConfig} {system : System}

theorem new (config : TraceConfig) (traceId : String) :
    (System.new config traceId).Orderly config where
  config_eq := rfl
  tracked := .idle (by simp [System.new]) rfl rfl
  booked := .rfl

theorem begin (orderly : system.Orderly config) (callback : Callback) :
    Orderly config { system with running := system.running ++ [⟨callback, 0⟩] } where
  config_eq := orderly.config_eq
  tracked := orderly.tracked.concat callback
  booked := by simpa [List.filterMap_append, Running.reported, Running.finished] using
    orderly.booked

theorem start (orderly : system.Orderly config) {index : ℕ} {callback : Callback}
    {chance : Chance} (found : system.running[index]? = some ⟨callback, 0⟩)
    (closed : ∀ other ∈ system.running, other.isOpen = false) :
    (system.called index ⟨callback, 0⟩ (.startSpan callback.name) chance).Orderly config := by
  obtain ⟨inactive, empty⟩ := orderly.tracked.of_closed closed
  simp only [System.called, Tracer.call, Tracer.startSpan, inactive, Bool.false_eq_true,
    if_false, Option.elim_none, Option.toList_none, List.append_nil]
  refine ⟨orderly.config_eq, ?_, ?_⟩
  · apply Tracked.set_active found rfl _ rfl rfl
    · simp [Tracer.openSpan, Running.collected, empty, orderly.config_eq, Table.ofList,
        TraceConfig.attributes]
    · intro other entry distinct located
      exact closed entry (List.mem_of_getElem? located)
  · refine orderly.booked.trans (Roster.filterMap_set_perm_of_eq found ?_).symm
    rfl

theorem add (orderly : system.Orderly config) {index count : ℕ} {callback : Callback}
    {pair : String × String} {chance : Chance}
    (found : system.running[index]? = some ⟨callback, count + 1⟩)
    (pairFound : callback.attributes[count]? = some pair) :
    (system.called index ⟨callback, count + 1⟩ (.addAttribute pair.1 pair.2) chance).Orderly
      config := by
  obtain ⟨within, -⟩ := List.getElem?_eq_some_iff.mp pairFound
  have few : count < 4 := within
  have wasOpen : Running.isOpen ⟨callback, count + 1⟩ = true := by
    simp [Running.isOpen]
    omega
  have staysOpen : Running.isOpen ⟨callback, count + 1 + 1⟩ = true := by
    simp [Running.isOpen]
    omega
  obtain ⟨others, spanActive, spanName, attributes⟩ := orderly.tracked.owner found wasOpen
  refine ⟨orderly.config_eq, ?_, ?_⟩
  · refine Tracked.set_active found staysOpen others spanActive spanName ?_
    simp only [System.called, Tracer.call, Tracer.addAttribute, Option.elim_none, attributes,
      Running.collected, Nat.add_sub_cancel]
    rw [List.take_add_one, pairFound, Option.toList_some, ← List.append_assoc,
      Table.ofList_concat]
  · simp only [System.called, Tracer.call, Option.toList_none, List.append_nil]
    apply orderly.booked.trans (Roster.filterMap_set_perm_of_eq found _).symm
    have unfinished : ¬6 ≤ count + 1 + 1 := by omega
    have before : ¬6 ≤ count + 1 := by omega
    simp [Running.reported, Running.finished, unfinished, before]

theorem finish (orderly : system.Orderly config) (sampled : 1 ≤ config.sampleRate)
    {index : ℕ} {callback : Callback} {chance : Chance}
    (found : system.running[index]? = some ⟨callback, 5⟩) :
    (system.called index ⟨callback, 5⟩ .endSpan chance).Orderly config := by
  obtain ⟨others, spanActive, spanName, attributes⟩ := orderly.tracked.owner found rfl
  have unsampled : ¬system.tracer.config.sampleRate < 1 := by
    rw [orderly.config_eq]
    exact not_lt.mpr sampled
  simp only [System.called, Tracer.call, Tracer.endSpan, spanActive, if_true, unsampled,
    decide_false, Bool.false_and, Bool.false_eq_true, if_false, Option.elim_some,
    Option.toList_some, Tracer.enqueue]
  refine ⟨orderly.config_eq, ?_, ?_⟩
  · apply Tracked.withSpans (.idle _ rfl rfl)
    intro other member
    rcases Roster.mem_set_cases member with rfl | ⟨position, distinct, located⟩
    · rfl
    · exact others position other distinct located
  · -- The span that is closed is the one this callback has built up.
    rw [List.map_append, List.map_singleton]
    apply (orderly.booked.append_right _).trans
      (Roster.filterMap_set_perm_of_none found rfl _).symm
    simp only [Running.reported, Running.finished, Callback.content, SpanData.content,
      Tracer.currentSpan, spanName, attributes, Running.collected]
    rfl

theorem call (orderly : system.Orderly config) (sampled : 1 ≤ config.sampleRate)
    {index : ℕ} {entry : Running} {call : Call} {chance : Chance}
    (found : system.running[index]? = some entry)
    (next : NextCall entry.callback entry.position call)
    (alone : entry.position = 0 → ∀ other ∈ system.running, other.isOpen = false) :
    (system.called index entry call chance).Orderly config := by
  obtain ⟨callback, position⟩ := entry
  dsimp only at next alone
  cases next with
  | start => exact orderly.start found (alone rfl)
  | add count pair pairFound => exact orderly.add found pairFound
  | finish => exact orderly.finish sampled found

theorem step (orderly : system.Orderly config) (sampled : 1 ≤ config.sampleRate)
    {action : Action} {next : System} (alone : system.Alone action)
    (taken : system.step action = some next) : next.Orderly config := by
  cases action with
  | begin callback =>
      cases taken
      exact orderly.begin callback
  | call index chance =>
      simp only [System.step, Option.bind_eq_some_iff, Option.map_eq_some_iff] at taken
      obtain ⟨entry, found, call, nextCall, rfl⟩ := taken
      exact orderly.call sampled found (nextCall_of_getElem? nextCall) (alone entry found)

end System.Orderly

theorem filterMap_reported (config : TraceConfig) (running : List Running) :
    running.filterMap (Running.reported config) =
      (running.filter Running.finished).map fun entry => entry.callback.content config := by
  induction running with
  | nil => rfl
  | cons entry rest ih =>
      by_cases finished : entry.finished = true
      · simp [Running.reported, finished, ← ih]
      · simp [Running.reported, finished, ← ih]

/-- When no callback starts its span inside the span of another one and every span
is sampled, the callbacks that have returned have enqueued exactly one span each,
with their own name, their own four attributes and the two of the service. -/
theorem System.reachable_spans_own (config : TraceConfig) (traceId : String)
    (sampled : 1 ≤ config.sampleRate) {system : System}
    (reachable : Reaches System.step System.Alone (.new config traceId) system) :
    (system.enqueued.map SpanData.content).Perm
      ((system.running.filter Running.finished).map fun entry =>
        entry.callback.content config) := by
  have orderly : system.Orderly config :=
    reachable.invariant (System.Orderly config) (.new config traceId)
      fun _ _ _ orderly alone taken => orderly.step sampled alone taken
  rw [← filterMap_reported]
  exact orderly.booked

instance (system : System) : (action : Action) → Decidable (system.Alone action)
  | .begin _ => .isTrue trivial
  | .call index _ =>
      inferInstanceAs (Decidable (∀ entry ∈ system.running[index]?, entry.position = 0 →
        ∀ other ∈ system.running, other.isOpen = false))

/-- Two answers, to requests for different paths. -/
def answerFor (path : String) : Callback :=
  ⟨"GET", path, 200, 1500⟩

/-- The next calls of one callback. -/
def makeCalls (index count : ℕ) : List Action :=
  List.replicate count (.call index ⟨2000, 2000, "00000000000000aa", true⟩)

/-- One callback after the other, both begun before the first has returned. -/
theorem System.reachable_spans_own_in_turn :
    ∃ system : System,
      Reaches System.step System.Alone (.new {} "trace") system ∧
      system.running.map Running.finished = [true, true] ∧
      (system.enqueued.map SpanData.content).Perm
        ((system.running.filter Running.finished).map fun entry =>
          entry.callback.content {}) := by
  have evaluated :
      (guardedRun System.step System.Alone (.new {} "trace")
        (List.flatten
          [[.begin (answerFor "/a"), .begin (answerFor "/b")], makeCalls 0 6,
            makeCalls 1 6])).map
        (fun system => system.running.map Running.finished) = some [true, true] := by
    decide +kernel
  obtain ⟨system, executes, finished⟩ := Option.map_eq_some_iff.mp evaluated
  have reaches := reaches_of_guardedRun executes
  exact ⟨system, reaches, finished, reachable_spans_own {} "trace" le_rfl reaches⟩

/-- Two callbacks on two threads.  The second one starts its span before the first
has added its attributes: the span of the first is enqueued without them, and they
end up in the span of the second. -/
theorem System.spans_mixed_up :
    ∃ system : System,
      Reaches System.step Unrestricted (.new {} "trace") system ∧
      system.running.map Running.finished = [true, true] ∧
      system.enqueued.map (fun span => (span.name, span.attributes.lookup "http.url")) =
        [("GET /a", none), ("GET /b", some "/a")] := by
  have evaluated :
      (run System.step (.new {} "trace")
        (List.flatten
          [[.begin (answerFor "/a"), .begin (answerFor "/b")], makeCalls 0 1, makeCalls 1 1,
            makeCalls 0 5, makeCalls 1 5])).map
        (fun system => (system.running.map Running.finished,
          system.enqueued.map fun span =>
            (span.name, span.attributes.lookup "http.url"))) =
      some ([true, true], [("GET /a", none), ("GET /b", some "/a")]) := by
    decide +kernel
  obtain ⟨system, executes, seen⟩ := Option.map_eq_some_iff.mp evaluated
  obtain ⟨finished, enqueued⟩ := Prod.mk.inj seen
  exact ⟨system, reaches_of_run executes, finished, enqueued⟩

end Cppload.Otel
