import RagEval.Lib.Dict
import RagEval.Lib.Operators
import RagEval.Lib.Uuid

/-!
# The tracing context

`app/api/deps/tracing.py`: the ids of a request and the headers they are passed on in. The trace
id is a UUID of which the header takes the digits; the span id is the first sixteen characters of
another, hyphens included.

## Main definitions

- `getTraceId`, `tracingContext`, `TracingContext.toHeaders` — as in the source
- `WellFormedTraceparent` — four fields of 2, 32, 16 and 2 hexadecimal digits

## Main result

- `traceparent_malformed` — the header has six fields
-/

namespace RagEval.Api
open RagEval.Lib

/-- What the functions read of a request: attributes of its state. -/
structure TracedRequest where
  traceId : Option String := none
  correlationId : Option String := none

/-- `a or b`, for texts that may be missing. -/
def orText (a b : Option String) : Option String := if a.getD "" = "" then b else a

/-- `traceIdVar` is the value of the context variable, `fresh` what `uuid4()` gives if asked. -/
def getTraceId (request : TracedRequest) (traceIdVar : String) (fresh : UUID) : String :=
  match request.traceId with
  | some traceId =>
    if traceId ≠ "" then traceId else if traceIdVar ≠ "" then traceIdVar else fresh.str
  | none => if traceIdVar ≠ "" then traceIdVar else fresh.str

structure TracingContext where
  traceId : String
  spanId : String
  correlationId : Option String := none
  parentSpanId : Option String := none

/-- `text.replace('-', '')`. -/
def removeHyphens (text : String) : String := String.ofList (text.toList.filter (· ≠ '-'))

def TracingContext.toHeaders (self : TracingContext) : Dict String String :=
  let headers := Dict.ofList
    [("X-Trace-ID", self.traceId),
     ("traceparent", "00-" ++ removeHyphens self.traceId ++ "-" ++ self.spanId ++ "-01")]
  match self.correlationId with
  | some correlationId =>
    if correlationId ≠ "" then headers.set "X-Correlation-ID" correlationId else headers
  | none => headers

/-- `str(u)[:16]`. -/
def spanText (u : UUID) : String := String.ofList (u.str.toList.take 16)

/-- `freshSpan` is what `uuid4()` gives for the span. -/
def tracingContext (request : TracedRequest) (traceIdVar : String) (freshTrace freshSpan : UUID)
    (xCorrelationId : Option String) : TracingContext where
  traceId := getTraceId request traceIdVar freshTrace
  spanId := spanText freshSpan
  correlationId := orText xCorrelationId request.correlationId

/-! ## The format of the header -/

def isLowerHex (c : Char) : Bool := decide (c ∈ HexInt.hexDigits)

/-- The fields of a trace context value: version, trace id, parent id and flags. -/
def WellFormedTraceparent (value : String) : Prop :=
  (Text.split value '-').map String.length = [2, 32, 16, 2] ∧
    ∀ field ∈ Text.split value '-', ∀ c ∈ field.toList, isLowerHex c = true

theorem get?_toHeaders_traceparent (self : TracingContext) :
    self.toHeaders.get? "traceparent" =
      some ("00-" ++ removeHyphens self.traceId ++ "-" ++ self.spanId ++ "-01") := by
  rw [TracingContext.toHeaders]
  cases self.correlationId with
  | none => rfl
  | some correlationId =>
    dsimp only
    split
    · rw [Dict.get?_set, if_neg (by decide)]
      rfl
    · rfl

theorem hyphen_not_mem_digits (l : List (Fin 16)) : '-' ∉ l.map HexInt.hexChar := by
  intro h
  obtain ⟨d, -, hd⟩ := List.mem_map.mp h
  exact (UUID.hexChar_plain d).1 hd

theorem removeHyphens_str (u : UUID) :
    removeHyphens u.str = String.ofList (u.digits.map HexInt.hexChar) := by
  rw [removeHyphens, UUID.filter_str]

/-- The first sixteen characters of a UUID are fourteen digits and two hyphens. -/
theorem toList_spanText (u : UUID) :
    (spanText u).toList =
      (u.digits.take 8).map HexInt.hexChar ++ '-' ::
        (((u.digits.drop 8).take 4).map HexInt.hexChar ++ '-' ::
          ((u.digits.drop 12).take 2).map HexInt.hexChar) := by
  have hlen := u.length_digits
  rw [spanText, String.toList_ofList, UUID.str, String.toList_ofList]
  simp [List.take_append, List.take_take, hlen]

/-- The fields of the header before they are joined. -/
def traceparentFields (trace span : UUID) : List String :=
  ["00", String.ofList (trace.digits.map HexInt.hexChar),
   String.ofList ((span.digits.take 8).map HexInt.hexChar),
   String.ofList (((span.digits.drop 8).take 4).map HexInt.hexChar),
   String.ofList (((span.digits.drop 12).take 2).map HexInt.hexChar), "01"]

theorem traceparent_eq (trace span : UUID) :
    "00-" ++ removeHyphens trace.str ++ "-" ++ spanText span ++ "-01" =
      "-".intercalate (traceparentFields trace span) := by
  apply String.toList_inj.mp
  rw [removeHyphens_str]
  simp [toList_spanText, traceparentFields]

/-- The hyphens of the span id make six fields of the header. -/
theorem split_traceparent (trace span : UUID) :
    Text.split ("00-" ++ removeHyphens trace.str ++ "-" ++ spanText span ++ "-01") '-' =
      traceparentFields trace span := by
  rw [traceparent_eq]
  refine Text.split_intercalate (c := '-') (List.cons_ne_nil _ _) ?_
  simp only [traceparentFields, List.forall_mem_cons, String.toList_ofList]
  exact ⟨by decide, hyphen_not_mem_digits _, hyphen_not_mem_digits _, hyphen_not_mem_digits _,
    hyphen_not_mem_digits _, by decide, fun _ h => absurd h List.not_mem_nil⟩

theorem lengths_traceparentFields (trace span : UUID) :
    (traceparentFields trace span).map String.length = [2, 32, 8, 4, 2, 2] := by
  have htrace := trace.length_digits
  have hspan := span.length_digits
  simp only [traceparentFields, List.map_cons, List.map_nil, String.length_ofList,
    List.length_map, List.length_take, List.length_drop, htrace, hspan]
  rfl

/-- Whatever the UUIDs, the header has six fields, the span id being three of them. -/
theorem traceparent_malformed (request : TracedRequest) (traceIdVar : String)
    (freshTrace freshSpan : UUID) (xCorrelationId : Option String) (trace : UUID)
    (h : getTraceId request traceIdVar freshTrace = trace.str) :
    ∃ value,
      (tracingContext request traceIdVar freshTrace freshSpan xCorrelationId).toHeaders.get?
          "traceparent" = some value ∧
        (Text.split value '-').map String.length = [2, 32, 8, 4, 2, 2] ∧
        ¬WellFormedTraceparent value := by
  refine ⟨_, get?_toHeaders_traceparent _, ?_⟩
  have hlengths : (Text.split ("00-" ++ removeHyphens trace.str ++ "-" ++ spanText freshSpan ++
      "-01") '-').map String.length = [2, 32, 8, 4, 2, 2] := by
    rw [split_traceparent, lengths_traceparentFields]
  rw [tracingContext, h]
  refine ⟨hlengths, fun hwellformed => ?_⟩
  have hcontra := hlengths.symm.trans hwellformed.1
  exact absurd hcontra (by decide)

/-- A trace id and a UUID drawn for the span. -/
def sampleTrace : UUID := ⟨List.replicate 32 1, List.length_replicate⟩

def sampleSpan : UUID := ⟨List.replicate 12 10 ++ 4 :: List.replicate 19 10, by decide⟩

theorem traceparent_malformed_sample :
    ∃ value, (tracingContext { traceId := some sampleTrace.str } "" sampleTrace sampleSpan
      none).toHeaders.get? "traceparent" = some value ∧ ¬WellFormedTraceparent value := by
  obtain ⟨value, hvalue, -, hmalformed⟩ := traceparent_malformed
    { traceId := some sampleTrace.str } "" sampleTrace sampleSpan none sampleTrace (by decide)
  exact ⟨value, hvalue, hmalformed⟩

theorem traceparent_six_fields :
    (tracingContext { traceId := some sampleTrace.str } "" sampleTrace sampleSpan
      none).toHeaders.get? "traceparent" =
        some "00-11111111111111111111111111111111-aaaaaaaa-aaaa-4a-01" ∧
      ¬WellFormedTraceparent "00-11111111111111111111111111111111-aaaaaaaa-aaaa-4a-01" := by
  refine ⟨by decide +kernel, fun h => ?_⟩
  exact absurd h.1 (by decide +kernel)

end RagEval.Api
