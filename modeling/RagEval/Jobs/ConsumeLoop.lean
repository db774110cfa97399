import RagEval.Jobs.IndependentJobs
import RagEval.Lib.CodePoints
import RagEval.Lib.Loop

/-!
# The consume loop

`main` and `_handle` of `app/workers/eval_worker.py` on arbitrary decoded messages, on
an infrastructure that does not fail. The handler looks its three fields up and updates the job
before its `try`, and nothing around the loop catches what these raise: the worker stops at the
first message that lacks a field, and at the first one whose job id is no key of the store.

## Main definitions

- `MessageValue` — the values in a decoded message
- `handle`, `consume` — one message, and the loop over them
- `Served` — every well-formed event was handled and its job ended

## Main results

- `handle_run` — the handler of an event, as a run of its steps
- `served_iff` — exactly the sequences are served whose well-formed events name a key and have
  no malformed message before them
-/

namespace RagEval.Jobs
open RagEval.Lib

/-- A value that `json.loads` makes; its texts may hold lone surrogates. -/
inductive MessageValue where
  | none
  | bool (b : Bool)
  | int (i : Int)
  | float (bits : BitVec 64)
  | str (text : CodePoints)
  | list (elements : List MessageValue)
  | dict (items : List (CodePoints × MessageValue))

/-- A decoded message: a JSON object. -/
abbrev Message := Dict CodePoints MessageValue

/-- `type(v).__name__`. -/
def MessageValue.typeName : MessageValue → String
  | .none => "NoneType"
  | .bool _ => "bool"
  | .int _ => "int"
  | .float _ => "float"
  | .str _ => "str"
  | .list _ => "list"
  | .dict _ => "dict"

mutual
/-- A value whose texts are all strings. -/
def MessageValue.ofValue : Value → MessageValue
  | .none => .none
  | .bool b => .bool b
  | .int i => .int i
  | .float bits => .float bits
  | .str s => .str (codePoints s)
  | .list xs => .list (ofValues xs)
  | .dict kvs => .dict (ofPayload kvs)

def ofValues : List Value → List MessageValue
  | [] => []
  | v :: vs => MessageValue.ofValue v :: ofValues vs

def ofPayload : Payload → List (CodePoints × MessageValue)
  | [] => []
  | (k, v) :: rest => (codePoints k, MessageValue.ofValue v) :: ofPayload rest
end

/-- How the interpreter displays the values of messages, `str` in an f-string and `repr` with
`!r`, and the outcomes of the service on arguments of any kind. -/
structure Display (env : WorkerEnv) where
  str : MessageValue → Except PyError CodePoints
  repr : MessageValue → Except String String
  calls : EvalType → List (CodePoints × MessageValue) → Outcome → Prop
  str_str : ∀ text, str (.str text) = .ok text
  repr_str : ∀ s, repr (.str (codePoints s)) = .ok (env.reprStr s)
  calls_iff : ∀ type payload outcome, calls type (ofPayload payload) outcome ↔
    match outcome with
    | .ok result => env.service.returns type payload result
    | .error error => env.service.raises type payload error

/-- The three fields `_handle` looks up. -/
structure RequestedFields where
  jobId : MessageValue
  evalType : MessageValue
  evalInput : MessageValue

/-- `event[k]`. -/
def lookUp (event : Message) (k : String) : Except PyError MessageValue :=
  match event.get? (codePoints k) with
  | some v => .ok v
  | none => .error (.keyError k)

def RequestedFields.read (event : Message) : Except PyError RequestedFields := do
  let jobId ← lookUp event "job_id"
  let evalType ← lookUp event "eval_type"
  let evalInput ← lookUp event "eval_input"
  pure ⟨jobId, evalType, evalInput⟩

/-- The evaluation an `eval_type` of any type names. -/
def EvalType.ofMessage : MessageValue → Option EvalType
  | .str text => (encodeUtf8 text).toOption.bind EvalType.ofString
  | _ => none

/-- The method of `EvaluationService`, as a `TypeError` names it. -/
def EvalType.function : EvalType → String
  | .singleTurn =>
    "app.services.evaluation_service.EvaluationService.evaluate_ragas_single_turn()"
  | .multiTurn => "app.services.evaluation_service.EvaluationService.evaluate_ragas_multi_turn()"

section
variable {env : WorkerEnv} (py : Display env)

/-- `str(ValueError(f"Unknown eval_type: {v!r}"))`; the display may raise itself. -/
def Display.unknownType (v : MessageValue) : String :=
  match py.repr v with
  | .ok shown => "Unknown eval_type: " ++ shown
  | .error error => error

/-- The job a `job_id` of any type names: the store's key holds its text in UTF-8. -/
def Display.jobId (v : MessageValue) : Except PyError String := do
  let text ← py.str v
  encodeUtf8 text

/-- The outcomes of the evaluation that fields ask for: an unknown type raises, and so does
an input that is no mapping. -/
def RequestedFields.Allows (fields : RequestedFields) (outcome : Outcome) : Prop :=
  match EvalType.ofMessage fields.evalType, fields.evalInput with
  | some type, .dict payload => py.calls type payload outcome
  | some type, input =>
    outcome = .error (type.function ++ " argument after ** must be a mapping, not " ++ input.typeName)
  | none, _ => outcome = .error (py.unknownType fields.evalType)

/-- A message, with how its evaluation ends if it comes to it and the times of its updates. -/
structure Delivery where
  message : Message
  outcome : Outcome
  startedAt : String
  endedAt : String
  allowed : ∀ fields, RequestedFields.read message = .ok fields → fields.Allows py outcome

/-- The update that reports an outcome. -/
def Outcome.fields (now : String) : Outcome → Record
  | .ok result => completedFields result now
  | .error error => failedFields error now

variable {py}

/-- `_handle`. -/
def handle (store : Store) (d : Delivery py) : Except PyError Store := do
  let fields ← RequestedFields.read d.message
  let jobId ← py.jobId fields.jobId
  let store := updateJob store jobId (runningFields d.startedAt)
  pure (updateJob store jobId (d.outcome.fields d.endedAt))

/-- What the loop has handled, with the store after each, and the exception that ended it. -/
structure Consumed (py : Display env) where
  handled : List (Delivery py × Store)
  error : Option PyError

/-- `async for msg in consumer: await _handle(msg.value, publisher)`. -/
def consume (store : Store) : List (Delivery py) → Consumed py
  | [] => ⟨[], none⟩
  | d :: rest =>
    match handle store d with
    | .error e => ⟨[], some e⟩
    | .ok store' =>
      let consumed := consume store' rest
      ⟨(d, store') :: consumed.handled, consumed.error⟩

/-- A well-formed event: one with all three fields. -/
def WellFormed (event : Message) : Prop :=
  codePoints "job_id" ∈ event.keys ∧ codePoints "eval_type" ∈ event.keys ∧
    codePoints "eval_input" ∈ event.keys

/-- The `job_id` of the message has a text, and a UTF-8 encoding of it. -/
def Delivery.Keyed (d : Delivery py) : Prop :=
  ∀ v, d.message.get? (codePoints "job_id") = some v →
    ∃ text, py.str v = .ok text ∧ encodable text = true

/-- The job of a handled event shows its end, if it has a record. -/
def Delivery.Reported (store₀ : Store) (d : Delivery py) (store : Store) : Prop :=
  ∀ fields id, RequestedFields.read d.message = .ok fields → py.jobId fields.jobId = .ok id →
    ∀ r₀, getJob store₀ id = some r₀ → ∃ r, getJob store id = some r ∧ Record.Tells r d.outcome

/-- Every well-formed event was handled, at its place, and its job has ended. -/
def Served (store : Store) (deliveries : List (Delivery py)) : Prop :=
  ∀ (i : Nat) (d : Delivery py), deliveries[i]? = some d → WellFormed d.message →
    ∃ store', (consume store deliveries).handled[i]? = some (d, store') ∧ d.Reported store store'

/-! ## One message -/

theorem lookUp_ok_iff {event : Message} {k : String} {v : MessageValue} :
    lookUp event k = .ok v ↔ event.get? (codePoints k) = some v := by
  rw [lookUp]
  cases event.get? (codePoints k) <;> simp

theorem read_ok_iff (event : Message) :
    (∃ fields, RequestedFields.read event = .ok fields) ↔ WellFormed event := by
  simp only [WellFormed, Dict.mem_keys_iff, ← lookUp_ok_iff]
  constructor
  · rintro ⟨fields, h⟩
    obtain ⟨jobId, hid, h⟩ := bind_ok h
    obtain ⟨evalType, htype, h⟩ := bind_ok h
    obtain ⟨evalInput, hinput, h⟩ := bind_ok h
    exact ⟨⟨jobId, hid⟩, ⟨evalType, htype⟩, ⟨evalInput, hinput⟩⟩
  · rintro ⟨⟨jobId, hid⟩, ⟨evalType, htype⟩, ⟨evalInput, hinput⟩⟩
    refine ⟨⟨jobId, evalType, evalInput⟩, ?_⟩
    rw [RequestedFields.read, hid, ok_bind, htype, ok_bind, hinput]
    rfl

theorem jobId_of_read {event : Message} {fields : RequestedFields}
    (h : RequestedFields.read event = .ok fields) :
    event.get? (codePoints "job_id") = some fields.jobId := by
  obtain ⟨jobId, hid, h⟩ := bind_ok h
  obtain ⟨evalType, -, h⟩ := bind_ok h
  obtain ⟨evalInput, -, h⟩ := bind_ok h
  obtain rfl := Except.ok.inj h
  exact lookUp_ok_iff.mp hid

theorem Display.jobId_ok_iff {v : MessageValue} :
    (∃ id, py.jobId v = .ok id) ↔ ∃ text, py.str v = .ok text ∧ encodable text = true := by
  rw [Display.jobId]
  cases hstr : py.str v with
  | error e => simp [bind, Except.bind]
  | ok text => simpa [bind, Except.bind] using encodeUtf8_ok_iff

/-- A message is handled if it can be read and its job named. -/
theorem handle_of_read {store : Store} {d : Delivery py} {fields : RequestedFields} {id : String}
    (h : RequestedFields.read d.message = .ok fields) (hid : py.jobId fields.jobId = .ok id) :
    handle store d = .ok (updateJob (updateJob store id (runningFields d.startedAt)) id
      (d.outcome.fields d.endedAt)) := by
  rw [handle, h, ok_bind, hid]
  rfl

theorem handle_ok {store store' : Store} {d : Delivery py} (h : handle store d = .ok store') :
    ∃ fields id, RequestedFields.read d.message = .ok fields ∧ py.jobId fields.jobId = .ok id ∧
      store' = updateJob (updateJob store id (runningFields d.startedAt)) id
        (d.outcome.fields d.endedAt) := by
  obtain ⟨fields, hread, hrest⟩ := bind_ok h
  obtain ⟨id, hid, -⟩ := bind_ok hrest
  rw [handle_of_read hread hid] at h
  exact ⟨fields, id, hread, hid, (Except.ok.inj h).symm⟩

/-- Exactly the well-formed messages with a key are handled. -/
theorem handle_ok_iff (store : Store) (d : Delivery py) :
    (∃ store', handle store d = .ok store') ↔ WellFormed d.message ∧ d.Keyed := by
  constructor
  · rintro ⟨store', h⟩
    obtain ⟨fields, id, hread, hid, -⟩ := handle_ok h
    refine ⟨(read_ok_iff _).mp ⟨fields, hread⟩, fun v hv => ?_⟩
    obtain rfl := Option.some.inj ((jobId_of_read hread).symm.trans hv)
    exact Display.jobId_ok_iff.mp ⟨id, hid⟩
  · rintro ⟨hwf, hkey⟩
    obtain ⟨fields, hread⟩ := (read_ok_iff _).mpr hwf
    obtain ⟨id, hid⟩ := Display.jobId_ok_iff.mpr (hkey _ (jobId_of_read hread))
    exact ⟨_, handle_of_read hread hid⟩

theorem EvalType.ofMessage_str (s : String) :
    EvalType.ofMessage (.str (codePoints s)) = EvalType.ofString s := by
  rw [EvalType.ofMessage, encodeUtf8_codePoints]
  rfl

/-- The fields of an event, as the message holds them. -/
def EvalRequestedEvent.fields (event : EvalRequestedEvent) : RequestedFields where
  jobId := .str (codePoints event.jobId)
  evalType := .str (codePoints event.evalType)
  evalInput := .dict (ofPayload event.evalInput)

theorem Display.jobId_str (id : String) : py.jobId (.str (codePoints id)) = .ok id := by
  rw [Display.jobId, py.str_str, ok_bind, encodeUtf8_codePoints]

/-- The outcome of a handled event is one its evaluation can have. -/
theorem Delivery.allows_event {d : Delivery py} {event : EvalRequestedEvent}
    (h : RequestedFields.read d.message = .ok event.fields) :
    env.Allows event d.outcome.event := by
  have hallows := d.allowed _ h
  simp only [RequestedFields.Allows, EvalRequestedEvent.fields, EvalType.ofMessage_str] at hallows
  cases htype : EvalType.ofString event.evalType with
  | none =>
    rw [htype] at hallows
    simp only [Display.unknownType, py.repr_str] at hallows
    rw [hallows]
    simp only [Outcome.event, WorkerEnv.Allows, htype]
  | some type =>
    rw [htype] at hallows
    simp only [py.calls_iff] at hallows
    cases ho : d.outcome with
    | ok result =>
      rw [ho] at hallows
      exact ⟨type, htype, hallows⟩
    | error error =>
      rw [ho] at hallows
      simp only [Outcome.event, WorkerEnv.Allows, htype]
      exact hallows

/-- A handled event went through a run of the handler's steps. -/
theorem handle_run {store : Store} {d : Delivery py} {event : EvalRequestedEvent}
    (h : RequestedFields.read d.message = .ok event.fields) :
    ∃ store', handle store d = .ok store' ∧
      Run (ReliableStep env event) (.init store)
        [.updated d.startedAt, d.outcome.event, .updated d.endedAt, .published]
        ⟨store', .returned⟩ := by
  have hallowed := d.allows_event h
  refine ⟨_, handle_of_read h (Display.jobId_str event.jobId), ?_⟩
  refine .cons ⟨⟨rfl, trivial⟩, trivial⟩ ?_
  -- an evaluation that returned and one that raised take their own branch of the `try`
  cases ho : d.outcome with
  | ok result =>
    rw [ho] at hallowed
    refine .cons ⟨⟨rfl, hallowed⟩, trivial⟩ ?_
    refine .cons ⟨⟨rfl, trivial⟩, trivial⟩ ?_
    exact .single ⟨⟨rfl, trivial⟩, trivial⟩
  | error error =>
    rw [ho] at hallowed
    refine .cons ⟨⟨rfl, hallowed⟩, trivial⟩ ?_
    refine .cons ⟨⟨rfl, trivial⟩, trivial⟩ ?_
    exact .single ⟨⟨rfl, trivial⟩, trivial⟩

theorem Outcome.fields_tells (outcome : Outcome) (r : Record) (now : String) :
    Record.Tells (r.update (outcome.fields now)) outcome := by
  cases outcome with
  | ok result => exact completedFields_tells r result now
  | error error => exact failedFields_tells r error now

theorem handle_reported {store store' : Store} {d : Delivery py} (h : handle store d = .ok store') :
    d.Reported store store' := by
  obtain ⟨fields, id, hread, hid, rfl⟩ := handle_ok h
  intro fields' id' hread' hid' r₀ hr₀
  obtain rfl := Except.ok.inj (hread.symm.trans hread')
  obtain rfl := Except.ok.inj (hid.symm.trans hid')
  refine ⟨(r₀.update (runningFields d.startedAt)).update (d.outcome.fields d.endedAt), ?_,
    d.outcome.fields_tells _ d.endedAt⟩
  simp only [getJob_updateJob, if_true, hr₀, Option.map_some]

/-- Handling a message makes no record and takes none away. -/
theorem handle_isSome {store store' : Store} {d : Delivery py} (h : handle store d = .ok store')
    (id : String) : (getJob store' id).isSome = (getJob store id).isSome := by
  obtain ⟨fields, jobId, -, -, rfl⟩ := handle_ok h
  by_cases hid : jobId = id
  · subst hid
    cases hg : getJob store jobId <;> simp [hg]
  · simp [hid]

theorem Delivery.Reported.congr {store₀ store₁ store : Store} (d : Delivery py)
    (h : ∀ id, (getJob store₁ id).isSome = (getJob store₀ id).isSome) :
    d.Reported store₀ store ↔ d.Reported store₁ store := by
  have hrecord : ∀ id, (∃ r, getJob store₁ id = some r) ↔ ∃ r, getJob store₀ id = some r := by
    intro id
    rw [← Option.isSome_iff_exists, ← Option.isSome_iff_exists, h]
  constructor
  · intro hrep fields id hread hid r₁ hr₁
    obtain ⟨r₀, hr₀⟩ := (hrecord _).mp ⟨r₁, hr₁⟩
    exact hrep fields id hread hid r₀ hr₀
  · intro hrep fields id hread hid r₀ hr₀
    obtain ⟨r₁, hr₁⟩ := (hrecord _).mpr ⟨r₀, hr₀⟩
    exact hrep fields id hread hid r₁ hr₁

/-! ## The loop -/

theorem served_cons_ok {store store' : Store} {d : Delivery py} (h : handle store d = .ok store')
    (rest : List (Delivery py)) : Served store (d :: rest) ↔ Served store' rest := by
  have hhandled : (consume store (d :: rest)).handled = (d, store') :: (consume store' rest).handled := by
    rw [consume, h]
  have hreported : ∀ (d' : Delivery py) st, d'.Reported store st ↔ d'.Reported store' st :=
    fun d' st => Delivery.Reported.congr d' (handle_isSome h)
  simp only [Served, hhandled, hreported]
  constructor
  · intro hserved i d' hd'
    exact hserved (i + 1) d' hd'
  · intro hserved i d' hd' hwf
    cases i with
    | zero =>
      obtain rfl := Option.some.inj hd'
      exact ⟨store', rfl, (hreported d store').mp (handle_reported h)⟩
    | succ i => exact hserved i d' hd' hwf

theorem served_cons_error {store : Store} {d : Delivery py} {e : PyError}
    (h : handle store d = .error e) (rest : List (Delivery py)) :
    Served store (d :: rest) ↔ ∀ d' ∈ d :: rest, ¬WellFormed d'.message := by
  have hhandled : (consume store (d :: rest)).handled = [] := by
    rw [consume, h]
  simp only [Served, hhandled]
  -- the loop has ended, so no event that is left is handled
  constructor
  · intro hserved d' hd' hwf
    obtain ⟨i, hi⟩ := List.mem_iff_getElem?.mp hd'
    obtain ⟨store', hnone, -⟩ := hserved i d' hi hwf
    cases hnone
  · intro hrest i d' hd' hwf
    exact absurd hwf (hrest d' (List.mem_of_getElem? hd'))

/-- **When the loop serves every event**: exactly when the job ids of the well-formed messages
are keys and no malformed message comes before a well-formed one. -/
theorem served_iff (store : Store) (deliveries : List (Delivery py)) :
    Served store deliveries ↔
      (∀ d ∈ deliveries, WellFormed d.message → d.Keyed) ∧
        deliveries.Pairwise fun d d' => WellFormed d'.message → WellFormed d.message := by
  induction deliveries generalizing store with
  | nil => simp [Served]
  | cons d rest ih =>
    rw [List.pairwise_cons, List.forall_mem_cons]
    cases h : handle store d with
    | ok store' =>
      obtain ⟨hwf, hkey⟩ := (handle_ok_iff store d).mp ⟨store', h⟩
      rw [served_cons_ok h, ih]
      simp [hwf, hkey]
    | error e =>
      have hnot : WellFormed d.message → ¬d.Keyed := by
        intro hwf hkey
        obtain ⟨store', hok⟩ := (handle_ok_iff store d).mpr ⟨hwf, hkey⟩
        rw [h] at hok
        cases hok
      rw [served_cons_error h, List.forall_mem_cons]
      constructor
      · rintro ⟨hwf, hrest⟩
        refine ⟨⟨fun h => absurd h hwf, fun d' hd' h => absurd h (hrest d' hd')⟩,
          fun d' hd' h => absurd h (hrest d' hd'), ?_⟩
        refine List.Pairwise.imp_of_mem ?_ (List.pairwise_of_forall fun _ _ => trivial)
        exact fun _ hd' _ hwf' => absurd hwf' (hrest _ hd')
      · rintro ⟨⟨hkey, -⟩, hbefore, -⟩
        have hwf : ¬WellFormed d.message := fun hwf => hnot hwf (hkey hwf)
        exact ⟨hwf, fun d' hd' hwf' => hwf (hbefore d' hd' hwf')⟩

end

namespace Demo

/-- Texts as the interpreter displays them; other values do not occur. -/
def plainDisplay : Display noScoresEnv where
  str v := match v with
    | .str text => .ok text
    | v => .ok (codePoints v.typeName)
  repr v := match v with
    | .str text => (encodeUtf8 text).mapError (fun _ => "") |>.map fun s => "'" ++ s ++ "'"
    | v => .ok v.typeName
  calls _ _ outcome := outcome = .ok noScores
  str_str _ := rfl
  repr_str s := by
    simp only [encodeUtf8_codePoints]
    rfl
  calls_iff type payload outcome := by
    cases outcome with
    | ok result => simp [noScoresEnv]
    | error error => simp [noScoresEnv]

/-- A message without a job id. -/
def malformed : Delivery plainDisplay where
  message := Dict.ofList
    [(codePoints "eval_type", .str (codePoints "single_turn")), (codePoints "eval_input", .dict [])]
  outcome := .ok noScores
  startedAt := "t1"
  endedAt := "t2"
  allowed fields h := by cases h

def wellFormed : Delivery plainDisplay where
  message := Dict.ofList
    [(codePoints "job_id", .str (codePoints "j")),
      (codePoints "eval_type", .str (codePoints "single_turn")), (codePoints "eval_input", .dict [])]
  outcome := .ok noScores
  startedAt := "t1"
  endedAt := "t2"
  allowed fields h := by
    obtain rfl := Except.ok.inj h
    rfl

def queuedStore : Store := createJob Dict.empty "j" "ragas_single_turn" none "t0"

end Demo

open Demo in
/-- The worker stops at the malformed message; the job behind it stays pending. -/
theorem served_not_malformed_first :
    WellFormed wellFormed.message ∧
      consume queuedStore [malformed, wellFormed] = ⟨[], some (.keyError "job_id")⟩ ∧
      ¬Served queuedStore [malformed, wellFormed] := by
  have hwf : WellFormed wellFormed.message := (read_ok_iff _).mp ⟨_, rfl⟩
  have hconsume : consume queuedStore [malformed, wellFormed] = ⟨[], some (.keyError "job_id")⟩ := rfl
  refine ⟨hwf, hconsume, fun hserved => ?_⟩
  obtain ⟨store', h, -⟩ := hserved 1 wellFormed rfl hwf
  rw [hconsume] at h
  cases h

end RagEval.Jobs
