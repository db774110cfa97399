import RagEval.Lib.Dict
import RagEval.Lib.Runs
import RagEval.Lib.Value

/-!
# The Kafka publisher

`app/infra/event_bus/kafka.py`. The publisher keeps the producer it publishes through from before
that producer has started until after it has stopped. The producers are those of the library:
`π` names them and `ε` is what they raise.

## Main definitions

- `KafkaPublisher.start`, `KafkaPublisher.stop`, `KafkaPublisher.publish` — as in the source
- `lastStart` — the most recent start, while no stop has completed since
- `Started`, `StartRaised` — it completed, or it raised

## Main results

- `hasProducer_of_run` — the publisher has a producer exactly after a most recent start
- `publish_sound_iff` — when all messages of a run go to a producer that has started
-/

namespace RagEval.Jobs
open RagEval.Lib

variable {π ε : Type}

inductive KafkaError (ε : Type) where
  | runtimeError (message : String)
  /-- Raised by the producer. -/
  | producer (e : ε)

def notStarted : KafkaError ε :=
  .runtimeError "KafkaPublisher not started — call await start() first"

structure KafkaPublisher (π : Type) where
  bootstrap : String
  producer : Option π

/-- What a call returns or raises, what it hands to a producer, and the publisher after it. -/
structure CallOutcome (π ε : Type) where
  result : Except (KafkaError ε) Unit
  handed : List (π × String × Dict String Value)
  self : KafkaPublisher π

namespace KafkaPublisher

/-- `KafkaPublisher.__init__`. -/
def init (aiokafkaAvailable : Bool) (bootstrapServers : String) :
    Except (KafkaError ε) (KafkaPublisher π) :=
  if aiokafkaAvailable then .ok ⟨bootstrapServers, none⟩
  else .error (.runtimeError
    "aiokafka is not installed. Add it to requirements.txt to use v2 Kafka publishing.")

/-- The producer `made` is kept before `started`, the outcome of starting it, is known. -/
def start (self : KafkaPublisher π) (made : π) (started : Except ε Unit) : CallOutcome π ε where
  result := started.mapError .producer
  handed := []
  self := { self with producer := some made }

/-- `stopped` is the outcome of stopping the producer. -/
def stop (self : KafkaPublisher π) (stopped : Except ε Unit) : CallOutcome π ε :=
  match self.producer with
  | none => ⟨.ok (), [], self⟩
  | some _ =>
    match stopped with
    | .ok () => ⟨.ok (), [], { self with producer := none }⟩
    | .error e => ⟨.error (.producer e), [], self⟩

/-- `sent` is the outcome of `send_and_wait`. -/
def publish (self : KafkaPublisher π) (topic : String) (payload : Dict String Value)
    (sent : Except ε Unit) : CallOutcome π ε :=
  match self.producer with
  | none => ⟨.error notStarted, [], self⟩
  | some producer => ⟨sent.mapError .producer, [(producer, topic, payload)], self⟩

end KafkaPublisher

/-! ## Calls in sequence -/

/-- A call, with what the producer does at it. -/
inductive KafkaCall (π ε : Type) where
  | start (made : π) (started : Except ε Unit)
  | stop (stopped : Except ε Unit)
  | publish (topic : String) (payload : Dict String Value) (sent : Except ε Unit)

def KafkaCall.isPublish : KafkaCall π ε → Bool
  | publish .. => true
  | _ => false

def KafkaCall.outcome (self : KafkaPublisher π) : KafkaCall π ε → CallOutcome π ε
  | start made started => self.start made started
  | stop stopped => self.stop stopped
  | publish topic payload sent => self.publish topic payload sent

/-- A call that was made, what it returned or raised, and what it handed to a producer. -/
structure KafkaEvent (π ε : Type) where
  call : KafkaCall π ε
  result : Except (KafkaError ε) Unit
  handed : List (π × String × Dict String Value)

/-- The call has returned. -/
def KafkaEvent.completed (event : KafkaEvent π ε) : Bool :=
  match event.result with
  | .ok () => true
  | .error _ => false

/-- The caller goes on after a call, whether it returned or raised. -/
def KafkaStep (self : KafkaPublisher π) (event : KafkaEvent π ε) (self' : KafkaPublisher π) :
    Prop :=
  event.call.outcome self = ⟨event.result, event.handed, self'⟩

/-- What a call does to the publisher, and under which condition. -/
inductive KafkaEffect (self : KafkaPublisher π) : KafkaEvent π ε → KafkaPublisher π → Prop
  | started (made : π) (started : Except ε Unit) :
      KafkaEffect self ⟨.start made started, started.mapError .producer, []⟩
        { self with producer := some made }
  | stopped (stopped : Except ε Unit) :
      KafkaEffect self ⟨.stop stopped, .ok (), []⟩ { self with producer := none }
  -- a stop that raises keeps the producer
  | stopRaised (e : ε) {producer : π} (hproducer : self.producer = some producer) :
      KafkaEffect self ⟨.stop (.error e), .error (.producer e), []⟩ self
  | refused (topic : String) (payload : Dict String Value) (sent : Except ε Unit)
      (hproducer : self.producer = none) :
      KafkaEffect self ⟨.publish topic payload sent, .error notStarted, []⟩ self
  | handed (topic : String) (payload : Dict String Value) (sent : Except ε Unit) {producer : π}
      (hproducer : self.producer = some producer) :
      KafkaEffect self
        ⟨.publish topic payload sent, sent.mapError .producer, [(producer, topic, payload)]⟩ self

/-! ## What a history of calls says -/

/-- The most recent start after one more call; `last` is the one before. -/
def KafkaEvent.updateLastStart (last : Option (KafkaEvent π ε)) (event : KafkaEvent π ε) :
    Option (KafkaEvent π ε) :=
  match event.call with
  | .start .. => some event
  | .stop .. => if event.completed then none else last
  | .publish .. => last

/-- The most recent start, if no stop has completed since. -/
def lastStart (history : List (KafkaEvent π ε)) : Option (KafkaEvent π ε) :=
  history.foldl KafkaEvent.updateLastStart none

/-- The most recent start completed and no stop has completed since. -/
def Started (history : List (KafkaEvent π ε)) : Prop :=
  ∃ event, lastStart history = some event ∧ event.completed = true

/-- The most recent start raised and no stop has completed since. -/
def StartRaised (history : List (KafkaEvent π ε)) : Prop :=
  ∃ event, lastStart history = some event ∧ event.completed = false

/-- A publish after the history hands a message to a producer only if that has started, and
raises `RuntimeError` otherwise. -/
def SoundAfter (history : List (KafkaEvent π ε)) (event : KafkaEvent π ε) : Prop :=
  (event.handed ≠ [] → Started history) ∧
    (¬Started history → event.result = .error notStarted)

/-! ## Runs -/

section Runs
variable {self self' : KafkaPublisher π} {event : KafkaEvent π ε}
  {history events : List (KafkaEvent π ε)}

/-- One case for each way a call can go. -/
theorem KafkaStep.effect (h : KafkaStep self event self') : KafkaEffect self event self' := by
  obtain ⟨call, result, handed⟩ := event
  cases call with
  | start made started =>
    obtain ⟨rfl, rfl, rfl⟩ := CallOutcome.mk.inj h
    exact .started made started
  | stop stopped =>
    simp only [KafkaStep, KafkaCall.outcome, KafkaPublisher.stop] at h
    cases hproducer : self.producer with
    | none =>
      rw [hproducer] at h
      obtain ⟨rfl, rfl, rfl⟩ := CallOutcome.mk.inj h
      have hself : { self with producer := none } = self := by rw [← hproducer]
      have heffect : KafkaEffect self ⟨.stop stopped, .ok (), []⟩ { self with producer := none } :=
        .stopped stopped
      rwa [hself] at heffect
    | some producer =>
      rw [hproducer] at h
      cases stopped with
      | ok _ =>
        obtain ⟨rfl, rfl, rfl⟩ := CallOutcome.mk.inj h
        exact .stopped (.ok ())
      | error e =>
        obtain ⟨rfl, rfl, rfl⟩ := CallOutcome.mk.inj h
        exact .stopRaised e hproducer
  | publish topic payload sent =>
    simp only [KafkaStep, KafkaCall.outcome, KafkaPublisher.publish] at h
    cases hproducer : self.producer with
    | none =>
      rw [hproducer] at h
      obtain ⟨rfl, rfl, rfl⟩ := CallOutcome.mk.inj h
      exact .refused topic payload sent hproducer
    | some producer =>
      rw [hproducer] at h
      obtain ⟨rfl, rfl, rfl⟩ := CallOutcome.mk.inj h
      exact .handed topic payload sent hproducer

/-- A step changes whether there is a producer as it changes the most recent start. -/
theorem KafkaStep.hasProducer (h : KafkaStep self event self')
    {last : Option (KafkaEvent π ε)} (hlast : self.producer.isSome = last.isSome) :
    self'.producer.isSome = (event.updateLastStart last).isSome := by
  cases h.effect with
  | started | stopped => rfl
  | stopRaised e => exact hlast
  | refused | handed => exact hlast

/-- The publisher has a producer exactly after a start since which no stop has completed, be it
one that raised. -/
theorem hasProducer_of_run (hinit : self.producer = none)
    (h : Run KafkaStep self history self') :
    self'.producer.isSome = (lastStart history).isSome := by
  refine h.trace_invariant (I := fun history self => self.producer.isSome =
    (lastStart history).isSome) (fun hlast hstep => ?_) (by rw [hinit]; rfl)
  rw [lastStart, List.foldl_concat]
  exact hstep.hasProducer hlast

/-- A publish that finds a producer hands the message to it, the others raise. -/
theorem KafkaStep.publish (h : KafkaStep self event self') (hpublish : event.call.isPublish) :
    (event.handed ≠ [] ↔ self.producer.isSome = true) ∧
      (self.producer.isSome = false → event.result = .error notStarted) := by
  cases h.effect with
  | started | stopped | stopRaised => cases hpublish
  | refused topic payload sent hproducer => simp [hproducer]
  | handed topic payload sent hproducer => simp [hproducer]

theorem started_or_startRaised (h : (lastStart history).isSome = true) :
    Started history ∨ StartRaised history := by
  obtain ⟨event, hevent⟩ := Option.isSome_iff_exists.mp h
  cases hcompleted : event.completed with
  | true => exact .inl ⟨event, hevent, hcompleted⟩
  | false => exact .inr ⟨event, hevent, hcompleted⟩

theorem StartRaised.not_started (h : StartRaised history) : ¬Started history := by
  obtain ⟨event, hevent, hraised⟩ := h
  rintro ⟨event', hevent', hcompleted⟩
  obtain rfl := Option.some.inj (hevent.symm.trans hevent')
  rw [hraised] at hcompleted
  exact Bool.false_ne_true hcompleted

/-- A publish is sound unless the most recent start raised and nothing has been stopped since. -/
theorem soundAfter_iff (hproducer : self.producer.isSome = (lastStart history).isSome)
    (hstep : KafkaStep self event self') (hpublish : event.call.isPublish) :
    SoundAfter history event ↔ ¬StartRaised history := by
  obtain ⟨hhanded, hraises⟩ := hstep.publish hpublish
  constructor
  · intro hsound hraised
    refine hraised.not_started (hsound.1 (hhanded.mpr ?_))
    obtain ⟨last, hlast, -⟩ := hraised
    rw [hproducer, hlast]
    rfl
  · intro hnot
    constructor
    · intro hne
      rw [hhanded, hproducer] at hne
      exact (started_or_startRaised hne).resolve_right hnot
    · intro hstarted
      apply hraises
      rw [hproducer]
      by_contra hsome
      rw [Bool.not_eq_false] at hsome
      exact (started_or_startRaised hsome).elim hstarted hnot

/-- In a run from a new publisher, every message goes to a producer that has started, and every
other publish raises `RuntimeError`, exactly if none is published after a start that raised and
before a stop that completes. -/
theorem publish_sound_iff (hinit : self.producer = none) (h : Run KafkaStep self events self') :
    (∀ history event rest, events = history ++ event :: rest → event.call.isPublish →
        SoundAfter history event) ↔
      ∀ history event rest, events = history ++ event :: rest → event.call.isPublish →
        ¬StartRaised history := by
  have hsound : ∀ history event rest, events = history ++ event :: rest →
      event.call.isPublish → (SoundAfter history event ↔ ¬StartRaised history) := by
    rintro history event rest rfl hpublish
    obtain ⟨before, hbefore, hafter⟩ := Run.append_iff.mp h
    obtain ⟨after, hstep, -⟩ := Run.cons_iff.mp hafter
    exact soundAfter_iff (hasProducer_of_run hinit hbefore) hstep hpublish
  constructor
  · exact fun hall history event rest hsplit hpublish =>
      (hsound history event rest hsplit hpublish).mp (hall history event rest hsplit hpublish)
  · exact fun hall history event rest hsplit hpublish =>
      (hsound history event rest hsplit hpublish).mpr (hall history event rest hsplit hpublish)

end Runs

/-! ## Two runs -/

/-- A start of the first producer. -/
def startEvent (started : Except String Unit) : KafkaEvent Nat String :=
  ⟨.start 0 started, started.mapError .producer, []⟩

/-- A message that the first producer takes. -/
def publishEvent : KafkaEvent Nat String :=
  ⟨.publish "eval.requested" Dict.empty (.ok ()), .ok (), [(0, "eval.requested", Dict.empty)]⟩

theorem run_startEvent (started : Except String Unit) :
    Run KafkaStep ⟨"localhost:9092", none⟩ [startEvent started, publishEvent]
      ⟨"localhost:9092", some 0⟩ :=
  .cons rfl (.single rfl)

theorem publish_sound_started : SoundAfter [startEvent (.ok ())] publishEvent := by
  refine (publish_sound_iff rfl (run_startEvent (.ok ()))).mpr ?_ [startEvent (.ok ())] publishEvent
    [] rfl rfl
  rintro history event rest hsplit hpublish ⟨last, hlast, hraised⟩
  obtain _ | ⟨first, _ | ⟨second, history⟩⟩ := history
  · cases hlast
  · obtain ⟨rfl, -⟩ := List.cons.inj hsplit
    obtain rfl := Option.some.inj hlast
    cases hraised
  · rw [List.cons_append, List.cons_append, List.cons.injEq, List.cons.injEq] at hsplit
    exact List.cons_ne_nil _ _ (List.append_eq_nil_iff.mp hsplit.2.2.symm).2

/-- The start has raised, and the message is handed to its producer. -/
theorem publish_after_failed_start :
    ∃ self', Run KafkaStep ⟨"localhost:9092", none⟩
        [startEvent (.error "no broker"), publishEvent] self' ∧
      publishEvent.handed ≠ [] ∧ ¬SoundAfter [startEvent (.error "no broker")] publishEvent := by
  refine ⟨_, run_startEvent (.error "no broker"), List.cons_ne_nil _ _, fun hsound => ?_⟩
  obtain ⟨last, hlast, hcompleted⟩ := hsound.1 (List.cons_ne_nil _ _)
  obtain rfl := Option.some.inj hlast
  cases hcompleted

end RagEval.Jobs
