import RagEval.Api.Tracing
import RagEval.Lib.ContextVar
import RagEval.Lib.Outcome
import RagEval.Lib.WithBlocks
import Mathlib.Logic.Function.Basic

/-!
# Blocks over tracing contexts

The context variables of `app/api/deps/tracing.py`, and `TracingContext.__enter__` and `__exit__`,
which set and reset them, one of them only where the context has a correlation id. A block binds
the ids of its context for what is in it, and leaves the variables as it found them.

## Main definitions

- `TracingContext.enter`, `TracingContext.exit` — as in the source
- `insideValues` — the ids that code within some contexts is to find

## Main result

- `tracingBlocks_restore` — what any program of blocks over distinct objects finds
-/

namespace RagEval.Api
open RagEval.Lib WithBlocks

def traceIdVar : ContextVar String := { name := "trace_id", default := "" }

def correlationIdVar : ContextVar (Option String) := { name := "correlation_id", default := none }

def spanIdVar : ContextVar String := { name := "span_id", default := "" }

/-- A `TracingContext` with its tokens, as `__init__` makes it. One without a correlation id never
holds a token for it. -/
structure TracingObject extends TracingContext where
  tokenTraceId : Option (Token String) := none
  tokenSpanId : Option (Token String) := none
  tokenCorrId : Option (Token (Option String)) := none
  no_token : correlationId.getD "" = "" → tokenCorrId = none := by exact fun _ => rfl

/-- The variables, and the objects there are. -/
structure TracingState (ι : Type) where
  traceIdVar : ContextVar String
  spanIdVar : ContextVar String
  correlationIdVar : ContextVar (Option String)
  objects : ι → TracingObject

/-- What the variables read as. -/
structure TracingValues where
  traceId : String
  spanId : String
  correlationId : Option String
  deriving Repr, DecidableEq

variable {ι ε : Type}

def TracingState.values (s : TracingState ι) : TracingValues where
  traceId := s.traceIdVar.get
  spanId := s.spanIdVar.get
  correlationId := s.correlationIdVar.get

section Blocks
variable [DecidableEq ι]

/-- What `__enter__` makes of the state. -/
def entered (obj : ι) (s : TracingState ι) : TracingState ι :=
  let object := s.objects obj
  let traceId := s.traceIdVar.set object.traceId
  let spanId := s.spanIdVar.set object.spanId
  let object := { object with tokenTraceId := some traceId.1, tokenSpanId := some spanId.1 }
  if h : object.correlationId.getD "" = "" then
    { s with
      traceIdVar := traceId.2
      spanIdVar := spanId.2
      objects := Function.update s.objects obj object }
  else
    let correlationId := s.correlationIdVar.set object.correlationId
    let object :=
      { object with tokenCorrId := some correlationId.1, no_token := fun h' => absurd h' h }
    { traceIdVar := traceId.2
      spanIdVar := spanId.2
      correlationIdVar := correlationId.2
      objects := Function.update s.objects obj object }

/-- `__enter__`. -/
def TracingContext.enter (obj : ι) : EStateM ε (TracingState ι) Unit := modify (entered obj)

end Blocks

/-- A statement that resets one variable, or raises. -/
def resetVar {α : Type} (raised : ResetError → ε)
    (reset : TracingState ι → Except ResetError (ContextVar α))
    (put : TracingState ι → ContextVar α → TracingState ι) : EStateM ε (TracingState ι) Unit :=
  fun s =>
    match reset s with
    | .ok v => .ok () (put s v)
    | .error e => .error (raised e) s

/-- `__exit__`; it returns nothing, so that an exception passes. -/
def TracingContext.exit (raised : ResetError → ε) (obj : ι) : EStateM ε (TracingState ι) Unit := do
  resetVar raised (fun s => s.traceIdVar.resetIf (s.objects obj).tokenTraceId)
    (fun s v => { s with traceIdVar := v })
  resetVar raised (fun s => s.spanIdVar.resetIf (s.objects obj).tokenSpanId)
    (fun s v => { s with spanIdVar := v })
  resetVar raised (fun s => s.correlationIdVar.resetIf (s.objects obj).tokenCorrId)
    (fun s v => { s with correlationIdVar := v })

/-- The contexts as managers; `raised` is how the errors of `reset` are raised. -/
def tracing [DecidableEq ι] (raised : ResetError → ε) :
    Manager ι TracingValues ε (TracingState ι) where
  view := TracingState.values
  enter := TracingContext.enter
  exit := TracingContext.exit raised

/-! ## What a block binds -/

/-- The ids of the context, with the correlation id there was if it has none. -/
def TracingContext.bind (context : TracingContext) (values : TracingValues) : TracingValues where
  traceId := context.traceId
  spanId := context.spanId
  correlationId := orText context.correlationId values.correlationId

def TracingContext.hasCorrelationId (context : TracingContext) : Bool :=
  decide (context.correlationId.getD "" ≠ "")

/-- The trace and span ids of the innermost context, and the correlation id of the innermost one
that has any; `ambient` is what is found outside of all. -/
def insideValues (ambient : TracingValues) (enclosing : List TracingContext) : TracingValues where
  traceId := (enclosing.head?.map TracingContext.traceId).getD ambient.traceId
  spanId := (enclosing.head?.map TracingContext.spanId).getD ambient.spanId
  correlationId := ((enclosing.find? TracingContext.hasCorrelationId).map
    TracingContext.correlationId).getD ambient.correlationId

theorem foldr_bind (contexts : ι → TracingContext) (ambient : TracingValues) (enclosing : List ι) :
    enclosing.foldr (fun obj => (contexts obj).bind) ambient =
      insideValues ambient (enclosing.map contexts) := by
  induction enclosing with
  | nil => rfl
  | cons obj enclosing ih =>
    rw [List.foldr_cons, ih, List.map_cons]
    by_cases h : (contexts obj).correlationId.getD "" = ""
    · simp [TracingContext.bind, TracingContext.hasCorrelationId, orText, insideValues, h]
    · simp [TracingContext.bind, TracingContext.hasCorrelationId, orText, insideValues, h]

/-! ## One block -/

/-- What `__enter__` does to the variables and to the tokens of its object. -/
structure Entered (obj : ι) (s t : TracingState ι) : Prop where
  traceId : s.traceIdVar.SetIf (t.objects obj).tokenTraceId t.traceIdVar
  spanId : s.spanIdVar.SetIf (t.objects obj).tokenSpanId t.spanIdVar
  correlationId : s.correlationIdVar.SetIf (t.objects obj).tokenCorrId t.correlationIdVar
  objects : ∀ other, other ≠ obj → t.objects other = s.objects other
  context : ∀ other, (t.objects other).toTracingContext = (s.objects other).toTracingContext

/-- What code within `enclosing` blocks does to the variables and to the tokens of their objects. -/
structure TracingKept (enclosing : List ι) (s t : TracingState ι) : Prop where
  traceId : s.traceIdVar.Restored t.traceIdVar
  spanId : s.spanIdVar.Restored t.spanIdVar
  correlationId : s.correlationIdVar.Restored t.correlationIdVar
  objects : ∀ obj ∈ enclosing, t.objects obj = s.objects obj
  context : ∀ obj, (t.objects obj).toTracingContext = (s.objects obj).toTracingContext

theorem TracingKept.refl (enclosing : List ι) (s : TracingState ι) : TracingKept enclosing s s where
  traceId := .refl _
  spanId := .refl _
  correlationId := .refl _
  objects _ _ := rfl
  context _ := rfl

theorem TracingKept.trans {enclosing : List ι} {s t u : TracingState ι}
    (h : TracingKept enclosing s t) (h' : TracingKept enclosing t u) :
    TracingKept enclosing s u where
  traceId := h.traceId.trans h'.traceId
  spanId := h.spanId.trans h'.spanId
  correlationId := h.correlationId.trans h'.correlationId
  objects obj hobj := (h'.objects obj hobj).trans (h.objects obj hobj)
  context obj := (h'.context obj).trans (h.context obj)

theorem TracingKept.values_eq {enclosing : List ι} {s t : TracingState ι}
    (h : TracingKept enclosing s t) : t.values = s.values := by
  rw [TracingState.values, TracingState.values, h.traceId.get_eq, h.spanId.get_eq,
    h.correlationId.get_eq]

section Block
variable [DecidableEq ι]

theorem Entered.of_update {obj : ι} {s t : TracingState ι} {object : TracingObject}
    (hobjects : t.objects = Function.update s.objects obj object)
    (htrace : s.traceIdVar.SetIf object.tokenTraceId t.traceIdVar)
    (hspan : s.spanIdVar.SetIf object.tokenSpanId t.spanIdVar)
    (hcorr : s.correlationIdVar.SetIf object.tokenCorrId t.correlationIdVar)
    (hcontext : object.toTracingContext = (s.objects obj).toTracingContext) : Entered obj s t := by
  have hobj : t.objects obj = object := by rw [hobjects, Function.update_self]
  have hother : ∀ other, other ≠ obj → t.objects other = s.objects other := by
    intro other hne
    rw [hobjects, Function.update_of_ne hne]
  refine ⟨hobj ▸ htrace, hobj ▸ hspan, hobj ▸ hcorr, hother, fun other => ?_⟩
  by_cases heq : other = obj
  · rw [heq, hobj, hcontext]
  · rw [hother other heq]

theorem entered_spec (obj : ι) (s : TracingState ι) : Entered obj s (entered obj s) := by
  by_cases h : (s.objects obj).correlationId.getD "" = ""
  · simp only [entered, h, dite_true]
    refine .of_update rfl (.set _) (.set _) ?_ rfl
    dsimp only
    rw [(s.objects obj).no_token h]
    exact .skip
  · simp only [entered, h, dite_false]
    exact .of_update rfl (.set _) (.set _) (.set _) rfl

theorem values_entered (obj : ι) (s : TracingState ι) :
    (entered obj s).values = (s.objects obj).toTracingContext.bind s.values := by
  by_cases h : (s.objects obj).correlationId.getD "" = ""
  · simp only [entered, h, dite_true, TracingContext.bind, orText, if_true]
    rfl
  · simp only [entered, h, dite_false, TracingContext.bind, orText, if_false]
    rfl

end Block

theorem resetVar_ok {α : Type} {raised : ResetError → ε}
    {reset : TracingState ι → Except ResetError (ContextVar α)}
    {put : TracingState ι → ContextVar α → TracingState ι} {s : TracingState ι} {v : ContextVar α}
    (h : reset s = .ok v) : resetVar raised reset put s = .ok () (put s v) := by
  rw [resetVar, h]

/-- `__exit__` undoes `__enter__` after code that keeps the tokens of its object. -/
theorem exists_exit (raised : ResetError → ε) {obj : ι} {enclosing : List ι}
    {s t u : TracingState ι} (hobj : obj ∉ enclosing) (henter : Entered obj s t)
    (hkept : TracingKept (obj :: enclosing) t u) :
    ∃ v, TracingContext.exit raised obj u = .ok () v ∧ TracingKept enclosing s v := by
  have htokens := hkept.objects obj List.mem_cons_self
  obtain ⟨traceIdVar, htrace, htraceKept⟩ := henter.traceId.exists_resetIf hkept.traceId
  obtain ⟨spanIdVar, hspan, hspanKept⟩ := henter.spanId.exists_resetIf hkept.spanId
  obtain ⟨correlationIdVar, hcorr, hcorrKept⟩ :=
    henter.correlationId.exists_resetIf hkept.correlationId
  rw [← htokens] at htrace hspan hcorr
  refine ⟨{ u with
    traceIdVar := traceIdVar
    spanIdVar := spanIdVar
    correlationIdVar := correlationIdVar }, ?_, ?_⟩
  · rw [TracingContext.exit, Outcome.bind_of_ok (resetVar_ok htrace),
      Outcome.bind_of_ok (resetVar_ok hspan), resetVar_ok hcorr]
  · refine ⟨htraceKept, hspanKept, hcorrKept, fun other hother => ?_, fun other => ?_⟩
    · have hne : other ≠ obj := ne_of_mem_of_not_mem hother hobj
      exact (hkept.objects other (List.mem_cons_of_mem obj hother)).trans (henter.objects other hne)
    · exact (hkept.context other).trans (henter.context other)

/-- The contexts bind the ids. -/
def tracingScoping [DecidableEq ι] (raised : ResetError → ε) (contexts : ι → TracingContext) :
    Scoping (tracing raised) (fun obj : ι => (contexts obj).bind) where
  Ready s := ∀ obj, (s.objects obj).toTracingContext = contexts obj
  Kept enclosing s t :=
    TracingKept enclosing s t ∧ ∀ obj, (t.objects obj).toTracingContext = contexts obj
  refl hs := ⟨.refl _ _, hs⟩
  trans h h' := ⟨h.1.trans h'.1, h'.2⟩
  ready h := h.2
  view_eq h := h.1.values_eq
  block {obj enclosing s} hobj hs := by
    have henter := entered_spec obj s
    refine ⟨entered obj s, rfl, fun other => (henter.context other).trans (hs other), ?_, ?_⟩
    · rw [← hs obj]
      exact values_entered obj s
    · rintro u ⟨hkept, hu⟩
      obtain ⟨v, hexit, hv⟩ := exists_exit raised hobj henter hkept
      exact ⟨v, hexit, hv, fun other => (hv.context other).trans (hs other)⟩

/-! ## Programs of blocks -/

/-- What is read within some blocks are the ids of their contexts, and after a block the variables
read as just before it. -/
def FindsIds (s : TracingState ι) : Event ι TracingValues → Prop
  | .read enclosing values =>
    values = insideValues s.values (enclosing.map fun obj => (s.objects obj).toTracingContext)
  | .left _ _ before after => after = before

theorem FindsIds.of_bound {s : TracingState ι} {event : Event ι TracingValues}
    (h : event.Bound (fun obj => (s.objects obj).toTracingContext.bind) s.values) :
    FindsIds s event := by
  cases event with
  | read enclosing values => exact h.trans (foldr_bind _ _ _)
  | left enclosing obj before after => exact h.2

/-- From any state, a program of blocks over distinct objects reads the ids of the contexts it is
in, and leaves every block, and is left itself, with the variables as they were. -/
theorem tracingBlocks_restore [DecidableEq ι] (raised : ResetError → ε) (s : TracingState ι)
    (p : Program ι TracingValues ε) (hp : p.Distinct []) :
    (∀ event ∈ (p.run (tracing raised) [] s).1.events, FindsIds s event) ∧
      (p.run (tracing raised) [] s).2.values = s.values := by
  obtain ⟨t, hrun, hkept⟩ :=
    (tracingScoping raised fun obj => (s.objects obj).toTracingContext).run_spec s.values hp
      (fun _ => rfl) rfl
  rw [hrun]
  exact ⟨fun event hevent => .of_bound (Program.lexical_events _ _ _ p event hevent),
    hkept.1.values_eq⟩

/-- Two contexts, the second without a correlation id. -/
def twoContexts : TracingState Bool where
  traceIdVar := traceIdVar
  spanIdVar := spanIdVar
  correlationIdVar := correlationIdVar
  objects
    | true => { traceId := "outer", spanId := "1", correlationId := some "request" }
    | false => { traceId := "inner", spanId := "2" }

/-- The inner block is left by an exception that is caught in the outer one. -/
def nestedBlocks : Program Bool TracingValues String :=
  .withBlock true
    (.seq
      (.tryExcept (.withBlock false (.read fun values => .raise values.traceId)) fun _ => .pass)
      (.read fun _ => .pass))

theorem tracingBlocks_restore_nested :
    (nestedBlocks.run (tracing fun _ => "") [] twoContexts).1.events =
        [.read [false, true] ⟨"inner", "2", some "request"⟩,
         .left [true] false ⟨"outer", "1", some "request"⟩ ⟨"outer", "1", some "request"⟩,
         .read [true] ⟨"outer", "1", some "request"⟩,
         .left [] true ⟨"", "", none⟩ ⟨"", "", none⟩] ∧
      (∀ event ∈ (nestedBlocks.run (tracing fun _ => "") [] twoContexts).1.events,
        FindsIds twoContexts event) ∧
      (nestedBlocks.run (tracing fun _ => "") [] twoContexts).2.values = ⟨"", "", none⟩ :=
  ⟨rfl, tracingBlocks_restore (fun _ => "") twoContexts nestedBlocks
    ⟨by decide, ⟨⟨⟨by decide, fun _ => trivial⟩, fun _ => trivial⟩, fun _ => trivial⟩⟩⟩

end RagEval.Api
