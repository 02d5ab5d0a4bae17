import Cppload.JsonAccess
import Cppload.Tracer

/-!
# The payload of an export

`do_export` builds the body of its request with nested braces, and `nlohmann::json` makes
an object of a braced list only if all its elements are pairs with a string in front.  The
value of an attribute is written `{"stringValue", text}`; that is no list of pairs, and
becomes an array.  A receiver that follows the mapping of OTLP to JSON rejects it.
-/

namespace Cppload

namespace Json

/-- An element that can be a field of an object. -/
def pair? : Json → Option (String × Json)
  | .array [.string key, value] => some (key, value)
  | _ => none

/-- A value from a braced list. -/
def braced (elements : List Json) : Json :=
  if elements.all fun element => element.pair?.isSome then
    .object (elements.filterMap pair?)
  else .array elements

def text? : Json → Option String
  | .string value => some value
  | _ => none

end Json

namespace Otel

open Json

def kVersion : String :=
  "1.1.0"

def kSpanKindClient : ℚ :=
  2

def kOtlpStatusCodeOk : ℚ :=
  1

/-! ## Building -/

/-- `{"stringValue", text}`. -/
def stringValue (text : String) : Json :=
  braced [.string "stringValue", .string text]

section Build

variable (value : String → Json)

/-- `{{"key", key}, {"value", ...}}`, for a way of writing the value. -/
def attributeJson (key text : String) : Json :=
  braced [braced [.string "key", .string key], braced [.string "value", value text]]

def attributesJson (attributes : Table String String) : List Json :=
  attributes.entries.map fun entry => attributeJson value entry.1 entry.2

def spanJson (span : SpanData) : Json :=
  let attributes := attributesJson value span.attributes
  .object (
    [("traceId", Json.string span.traceId), ("spanId", Json.string span.spanId)] ++
    (if span.parentSpanId = "" then [] else [("parentSpanId", Json.string span.parentSpanId)]) ++
    [("name", Json.string span.name), ("kind", Json.number kSpanKindClient),
      ("startTimeUnixNano", Json.string (toString span.startTime)),
      ("endTimeUnixNano", Json.string (toString span.endTime))] ++
    (if attributes = [] then [] else [("attributes", Json.array attributes)]) ++
    [("status", Json.object [("code", Json.number kOtlpStatusCodeOk)])])

def resourceJson (config : TraceConfig) : Json :=
  .object [("attributes", .array
    [attributeJson value "service.name" config.serviceName,
      attributeJson value "service.version" config.serviceVersion])]

def scopeSpansJson (spans : List SpanData) : Json :=
  .object
    [("scope", .object [("name", .string "volley"), ("version", .string kVersion)]),
      ("spans", .array (spans.map (spanJson value)))]

def payloadJson (config : TraceConfig) (spans : List SpanData) : Json :=
  .object [("resourceSpans", .array
    [.object [("resource", resourceJson value config),
      ("scopeSpans", .array [scopeSpansJson value spans])]])]

end Build

/-- The body that `do_export` sends for a list of spans that is not empty. -/
def exportPayload (config : TraceConfig) (spans : List SpanData) : Json :=
  payloadJson stringValue config spans

/-! ## Reading -/

/-- A span as a receiver sees it. -/
structure ReceivedSpan where
  traceId : String
  spanId : String
  parentSpanId : String
  name : String
  startTime : ℤ
  endTime : ℤ
  attributes : List (String × String)
  deriving DecidableEq, Repr

/-- The attributes of a resource, and all its spans. -/
structure ReceivedResource where
  attributes : List (String × String)
  spans : List ReceivedSpan
  deriving DecidableEq, Repr

/-- A field that must be there and hold a text. -/
def readText (json : Json) (key : String) : Option String := do
  let found ← json.field? key
  found.text?

/-- A text that is empty when the field is missing. -/
def readOptionalText (json : Json) (key : String) : Option String :=
  match json.field? key with
  | none => some ""
  | some found => found.text?

/-- A 64-bit number, which JSON carries as a text. -/
def readNumber (json : Json) (key : String) : Option ℤ := do
  let text ← readText json key
  text.toInt?

/-- A field that holds a list; it is empty when the field is missing. -/
def readList {Item : Type} (json : Json) (key : String) (read : Json → Option Item) :
    Option (List Item) :=
  match json.field? key with
  | none => some []
  | some found => do
      let items ← found.items?
      items.mapM read

def readAttribute (json : Json) : Option (String × String) := do
  let key ← readText json "key"
  let value ← json.field? "value"
  let text ← readText value "stringValue"
  return (key, text)

def readSpan (json : Json) : Option ReceivedSpan := do
  let traceId ← readText json "traceId"
  let spanId ← readText json "spanId"
  let parentSpanId ← readOptionalText json "parentSpanId"
  let name ← readText json "name"
  let startTime ← readNumber json "startTimeUnixNano"
  let endTime ← readNumber json "endTimeUnixNano"
  let attributes ← readList json "attributes" readAttribute
  return ⟨traceId, spanId, parentSpanId, name, startTime, endTime, attributes⟩

def readResource (json : Json) : Option ReceivedResource := do
  let resource ← json.field? "resource"
  let attributes ← readList resource "attributes" readAttribute
  let scopes ← readList json "scopeSpans" fun scope => readList scope "spans" readSpan
  return ⟨attributes, scopes.flatten⟩

def readPayload (json : Json) : Option (List ReceivedResource) :=
  readList json "resourceSpans" readResource

/-- What a receiver should see of a span. -/
def SpanData.received (span : SpanData) : ReceivedSpan where
  traceId := span.traceId
  spanId := span.spanId
  parentSpanId := span.parentSpanId
  name := span.name
  startTime := span.startTime
  endTime := span.endTime
  attributes := span.attributes.entries.map fun entry => (entry.1, entry.2)

/-! ## Fields -/

theorem field?_object_cons (key other : String) (value : Json) (fields : List (String × Json)) :
    (Json.object ((other, value) :: fields)).field? key =
      if key = other then some value else (Json.object fields).field? key := by
  by_cases same : key = other
  · simp [Json.field?, same]
  · have different : (key == other) = false := beq_eq_false_iff_ne.mpr same
    simp [Json.field?, List.lookup_cons, same, different]

theorem readText_object_cons (key other : String) (value : Json)
    (fields : List (String × Json)) :
    readText (.object ((other, value) :: fields)) key =
      if key = other then value.text? else readText (.object fields) key := by
  rw [readText, field?_object_cons]
  split <;> rfl

/-! ## Attributes -/

/-- The outer braces of an attribute make an object, whatever the value is. -/
theorem attributeJson_eq (value : String → Json) (key text : String) :
    attributeJson value key text = .object [("key", .string key), ("value", value text)] :=
  rfl

theorem readAttribute_attributeJson (value : String → Json) (key text : String) :
    readAttribute (attributeJson value key text) =
      (readText (value text) "stringValue").map fun read => (key, read) := by
  rw [attributeJson_eq]
  cases found : readText (value text) "stringValue" <;>
    simp [readAttribute, readText_object_cons, field?_object_cons, Json.text?, found]

/-- The inner braces are no list of pairs. -/
theorem stringValue_eq (text : String) :
    stringValue text = .array [.string "stringValue", .string text] :=
  rfl

theorem readAttribute_stringValue (key text : String) :
    readAttribute (attributeJson stringValue key text) = none := by
  rw [readAttribute_attributeJson, stringValue_eq]
  rfl

/-! ## Round trips -/

section RoundTrip

variable {value : String → Json}

theorem mapM_map_eq_some {First Second Third : Type} {read : Second → Option Third}
    {write : First → Second} {result : First → Third} (items : List First)
    (inverse : ∀ item ∈ items, read (write item) = some (result item)) :
    (items.map write).mapM read = some (items.map result) := by
  induction items with
  | nil => rfl
  | cons item rest induction =>
      rw [List.forall_mem_cons] at inverse
      rw [List.map_cons, List.mapM_cons, inverse.1, induction inverse.2]
      rfl

theorem readAttribute_of_value (inverse : ∀ text, readText (value text) "stringValue" = some text)
    (key text : String) : readAttribute (attributeJson value key text) = some (key, text) := by
  rw [readAttribute_attributeJson, inverse]
  rfl

theorem readOptionalText_object_cons (key other : String) (value : Json)
    (fields : List (String × Json)) :
    readOptionalText (.object ((other, value) :: fields)) key =
      if key = other then value.text? else readOptionalText (.object fields) key := by
  rw [readOptionalText, field?_object_cons]
  by_cases same : key = other
  · rw [if_pos same, if_pos same]
  · rw [if_neg same, if_neg same]
    rfl

theorem readList_object_cons {Item : Type} (key other : String) (value : Json)
    (fields : List (String × Json)) (read : Json → Option Item) :
    readList (.object ((other, value) :: fields)) key read =
      if key = other then value.items?.bind (List.mapM read)
      else readList (.object fields) key read := by
  rw [readList, field?_object_cons]
  by_cases same : key = other
  · rw [if_pos same, if_pos same]
    rfl
  · rw [if_neg same, if_neg same]
    rfl

theorem readNumber_object_cons (key other : String) (value : Json)
    (fields : List (String × Json)) :
    readNumber (.object ((other, value) :: fields)) key =
      if key = other then value.text?.bind String.toInt? else readNumber (.object fields) key := by
  rw [readNumber, readText_object_cons]
  split <;> rfl

theorem mapM_attributesJson (inverse : ∀ text, readText (value text) "stringValue" = some text)
    (attributes : Table String String) :
    (attributesJson value attributes).mapM readAttribute =
      some (attributes.entries.map fun entry => (entry.1, entry.2)) :=
  mapM_map_eq_some attributes.entries fun entry _ =>
    readAttribute_of_value inverse entry.1 entry.2

/-- Fields that are left out read as empty. -/
theorem readSpan_spanJson (inverse : ∀ text, readText (value text) "stringValue" = some text)
    (span : SpanData) : readSpan (spanJson value span) = some span.received := by
  have attributes := mapM_attributesJson inverse span.attributes
  have missingText (key : String) : readOptionalText (.object []) key = some "" := rfl
  have missingList (key : String) : readList (.object []) key readAttribute = some [] := rfl
  have received : span.received = ⟨span.traceId, span.spanId, span.parentSpanId, span.name,
      span.startTime, span.endTime, span.attributes.entries.map fun entry => (entry.1, entry.2)⟩ :=
    rfl
  simp only [spanJson]
  by_cases none : attributesJson value span.attributes = []
  · -- Without attributes the field is missing, and reads as the empty list.
    rw [none, List.mapM_nil] at attributes
    have empty := Option.some.inj attributes
    by_cases parent : span.parentSpanId = "" <;>
      simp [readSpan, readText_object_cons, readOptionalText_object_cons, readNumber_object_cons,
        readList_object_cons, parent, none, Json.text?, missingText, missingList,
        received, ← empty]
  · by_cases parent : span.parentSpanId = "" <;>
      simp [readSpan, readText_object_cons, readOptionalText_object_cons, readNumber_object_cons,
        readList_object_cons, parent, none, Json.text?, Json.items?, missingText, attributes,
        received]

theorem readPayload_payloadJson (inverse : ∀ text, readText (value text) "stringValue" = some text)
    (config : TraceConfig) (spans : List SpanData) :
    readPayload (payloadJson value config spans) =
      some [⟨[("service.name", config.serviceName), ("service.version", config.serviceVersion)],
        spans.map SpanData.received⟩] := by
  have read := mapM_map_eq_some spans fun span _ => readSpan_spanJson inverse span
  simp [readPayload, payloadJson, readList_object_cons, readResource, field?_object_cons,
    resourceJson, scopeSpansJson, Json.items?, readAttribute_of_value inverse, read]

end RoundTrip

/-- `{{"stringValue", text}}`, one pair of braces more. -/
def nestedStringValue (text : String) : Json :=
  braced [stringValue text]

theorem readText_nestedStringValue (text : String) :
    readText (nestedStringValue text) "stringValue" = some text := by
  simp [nestedStringValue, stringValue_eq, braced, pair?, readText_object_cons, Json.text?]

/-- No payload can be read, because of the attributes of the resource.  With the values in
one more pair of braces, every payload reads as what was exported. -/
theorem readPayload_exportPayload (config : TraceConfig) (first : SpanData)
    (rest : List SpanData) :
    readPayload (exportPayload config (first :: rest)) = none ∧
      readPayload (payloadJson nestedStringValue config (first :: rest)) =
        some [⟨[("service.name", config.serviceName),
          ("service.version", config.serviceVersion)],
          (first :: rest).map SpanData.received⟩] := by
  refine ⟨?_, readPayload_payloadJson readText_nestedStringValue config (first :: rest)⟩
  simp [readPayload, exportPayload, payloadJson, readList_object_cons, readResource,
    field?_object_cons, resourceJson, Json.items?, readAttribute_stringValue]

/-- One span without attributes of its own. -/
theorem exportPayload_rejected :
    readPayload (exportPayload {} [⟨"GET /", "trace", "span", "", 1, 2, ∅⟩]) = none ∧
      (attributeJson stringValue "service.name" "volley").field? "value" =
        some (.array [.string "stringValue", .string "volley"]) := by
  constructor <;> rfl

end Otel

end Cppload
