import RagEval.Jobs.IndependentJobs
import RagEval.Jobs.Wire
import RagEval.Lib.Simulation

/-!
# The system of texts and the system of records

Every text written is read back as the record or the event it was written for, up to the bits
of NaNs, which no text shows. So the system over texts takes the steps of the system over
records and no others: no reader ever fails.

## Main definitions

- `SystemAgrees` — a state over records and a state over texts that stands for it

## Main results

- `PartyAgrees.forward`, `PartyAgrees.backward` — the steps of one match those of the other
- `wire_bisimilar` — the two systems have the same runs
-/

namespace RagEval.Jobs
open RagEval.Lib RagEval.Lib.Json RagEval.Api

/-! ## Records and their texts -/

/-- The record as it reads back: one bit pattern for its NaNs. -/
def unified (data : Record) : Record := data.mapValues unifyNaNs

/-- No dict within the record has a key twice. -/
def Storable (data : Record) : Prop := ∀ k v, data.get? k = some v → DistinctKeys v

theorem Storable.distinctKeys {data : Record} (h : Storable data) :
    DistinctKeys (.dict data.items) :=
  ⟨data.nodup_keys, (distinctKeysItems_iff _).mpr fun kv hkv =>
    h kv.1 kv.2 ((Dict.get?_eq_some_iff data kv.1 kv.2).mpr hkv)⟩

theorem Storable.update {data fields : Record} (h : Storable data) (hfields : Storable fields) :
    Storable (data.update fields) := by
  intro k v hv
  rw [Dict.get?_update] at hv
  cases hk : fields.get? k with
  | some w =>
    rw [hk, Option.some_or, Option.some.injEq] at hv
    exact hv ▸ hfields k w hk
  | none =>
    rw [hk, Option.none_or] at hv
    exact h k v hv

theorem unifyNaNs_dict (data : Record) :
    unifyNaNs (.dict data.items) = .dict (unified data).items := by
  show Value.dict (unifyNaNsItems data.items) = _
  rw [unifyNaNsItems_eq_map]
  rfl

theorem unified_update (data fields : Record) :
    unified (data.update fields) = (unified data).update (unified fields) :=
  Dict.mapValues_update unifyNaNs data fields

theorem Storable.unified_unified {data : Record} (h : Storable data) :
    unified (unified data) = unified data := by
  have hcanonical := canonical_unifyNaNs h.distinctKeys
  rw [unifyNaNs_dict] at hcanonical
  have hdict := hcanonical.oneNaN
  rw [unifyNaNs_dict] at hdict
  exact Dict.ext_items (Value.dict.inj hdict)

theorem dumpRecord_congr {data data' : Record} (h : unified data = unified data') :
    dumpRecord data = dumpRecord data' := by
  rw [dumpRecord, ← dumpsWith_unifyNaNs, unifyNaNs_dict, h, ← unifyNaNs_dict, dumpsWith_unifyNaNs,
    dumpRecord]

theorem Storable.loads_dumpRecord {data : Record} (h : Storable data) :
    loads (dumpRecord data) = some (.dict (unified data).items) := by
  rw [dumpRecord, loads_dumpsWith .spaced h.distinctKeys, unifyNaNs_dict]

/-! ## The store -/

def Entry.encode (e : Entry) : TextEntry := ⟨dumpRecord e.data, e.ttl⟩

/-- The store of texts that stands for a store of records. -/
def encode (store : Store) : TextStore := store.mapValues Entry.encode

def StoreStorable (store : Store) : Prop := ∀ k e, store.get? k = some e → Storable e.data

theorem StoreStorable.getJob {store : Store} (h : StoreStorable store) {id : String} {data : Record}
    (hget : getJob store id = some data) : Storable data := by
  obtain ⟨e, he, rfl⟩ := Option.map_eq_some_iff.mp hget
  exact h _ e he

theorem StoreStorable.set {store : Store} (h : StoreStorable store) (k : String) {e : Entry}
    (he : Storable e.data) : StoreStorable (store.set k e) := by
  intro k' e' hget
  obtain ⟨-, rfl⟩ | ⟨-, hold⟩ := Dict.get?_set_cases hget
  · exact he
  · exact h k' e' hold

theorem dumpRecord_ne_empty (data : Record) : dumpRecord data ≠ "" := by
  intro h
  obtain ⟨c, cs, hcons, -⟩ := printWith_eq_cons .spaced (.dict data.items)
  have hnil := congrArg String.toList h
  rw [dumpRecord, dumpsWith, String.toList_ofList, hcons] at hnil
  cases hnil

/-- What is read of a job is what was stored, up to the bits of its NaNs. -/
theorem Wire.getJob_encode {store : Store} (h : StoreStorable store) (id : String) :
    Wire.getJob (encode store) id =
      .ok ((Jobs.getJob store id).map fun data => .dict (unified data).items) := by
  rw [Wire.getJob, encode, Dict.get?_mapValues, Jobs.getJob]
  cases hget : store.get? (key id) with
  | none => rfl
  | some e =>
    have hloads := (h _ e hget).loads_dumpRecord
    simp only [Option.map_some, Entry.encode, dumpRecord_ne_empty, if_false, hloads]

theorem Wire.updateGet_encode {store : Store} (h : StoreStorable store) (id : String)
    (fields : Record) :
    Wire.updateGet (encode store) id fields =
      .ok ((Jobs.getJob store id).map fun data => (unified data).update fields) := by
  rw [Wire.updateGet, Wire.getJob_encode h]
  cases Jobs.getJob store id with
  | none => rfl
  | some data =>
    simp only [Option.map_some]
    rw [Dict.ofList_items]

theorem Wire.updateSet_encode (store : Store) (id : String) {data data' : Record}
    (h : unified data = unified data') :
    Wire.updateSet (encode store) id data' = encode (Jobs.updateSet store id data) := by
  rw [Wire.updateSet, encode, encode, Jobs.updateSet, Dict.mapValues_set, Entry.encode,
    dumpRecord_congr h]

theorem Wire.createJob_encode (store : Store) (id jobType : String)
    (idempotencyKey : Option String) (now : String) :
    Wire.createJob (encode store) id jobType idempotencyKey now =
      encode (Jobs.createJob store id jobType idempotencyKey now) := by
  rw [Wire.createJob, encode, encode, Jobs.createJob, Dict.mapValues_set, Entry.encode]

/-! ## Events -/

theorem canonical_asdict {event : EvalRequestedEvent} (h : Canonical (.dict event.evalInput))
    (eventId occurredAt : String) : Canonical (event.asdict eventId occurredAt) := by
  refine canonical_dict (by simp) ?_
  simp only [List.forall_mem_cons, List.not_mem_nil, false_implies, implies_true, and_true]
  exact ⟨⟨trivial, rfl⟩, ⟨trivial, rfl⟩, h, ⟨trivial, rfl⟩, ⟨trivial, rfl⟩⟩

/-- The consumer gets the event that was published. -/
theorem EvalRequestedEvent.ofText_text {event : EvalRequestedEvent}
    (h : Canonical (.dict event.evalInput)) (eventId occurredAt : String) :
    EvalRequestedEvent.ofText (event.text eventId occurredAt) = some event := by
  rw [ofText, text, loads_dumpsWith_of_canonical _ (canonical_asdict h eventId occurredAt),
    Option.bind_some]
  simp [ofDict, asdict, Assoc.get]

/-! ## Matching states -/

/-- The updates at this position write storable fields. -/
def HandlerPos.Writes (pos : HandlerPos) : Prop :=
  ∀ now fields, pos.fields now = some fields → Storable fields

structure HeldAgrees (held held' : OpenUpdate) : Prop where
  now : held.now = held'.now
  data : unified held.data = unified held'.data
  storable : Storable held.data

/-- A party over texts is as far as one over records. -/
inductive PartyAgrees : Party → Wire.Party → Prop
  | requested {event : EvalRequestedEvent} (h : Canonical (.dict event.evalInput)) :
      PartyAgrees ⟨event, .requested⟩ (.requested event)
  | queued {event : EvalRequestedEvent} (h : Canonical (.dict event.evalInput))
      (eventId occurredAt : String) :
      PartyAgrees ⟨event, .queued⟩ (.queued (event.text eventId occurredAt))
  | handling {event : EvalRequestedEvent} {pos : HandlerPos} {held held' : Option OpenUpdate}
      (hpos : pos.Writes) (hheld : Option.Rel HeldAgrees held held') :
      PartyAgrees ⟨event, .handling pos held⟩ (.handling event pos held')

structure SystemAgrees (s : System) (t : Wire.System) : Prop where
  store : t.store = encode s.store
  storable : StoreStorable s.store
  parties : List.Forall₂ PartyAgrees s.parties t.parties

theorem storable_ofList {l : List (String × Value)} (h : ∀ kv ∈ l, DistinctKeys kv.2) :
    Storable (Dict.ofList l) :=
  fun k v hv => h (k, v) (Dict.mem_of_get?_ofList hv)

theorem storable_newRecord (id jobType : String) (idempotencyKey : Option String) (now : String) :
    Storable (newRecord id jobType idempotencyKey now) := by
  apply storable_ofList
  simp only [List.forall_mem_cons, List.not_mem_nil, false_implies, implies_true, and_true]
  have hkey : DistinctKeys ((idempotencyKey.map Value.str).getD .none) := by
    cases idempotencyKey with
    | none => trivial
    | some k => trivial
  exact ⟨trivial, trivial, trivial, hkey, trivial, trivial, trivial, trivial, trivial⟩

theorem HandlerPos.writes_of_ne {pos : HandlerPos} (h : ∀ result, pos ≠ .markCompleted result) :
    pos.Writes := by
  intro now fields hfields
  unfold HandlerPos.fields at hfields
  split at hfields
  · obtain rfl := Option.some.inj hfields
    exact storable_ofList (by simp [DistinctKeys])
  · exact absurd rfl (h _)
  · obtain rfl := Option.some.inj hfields
    exact storable_ofList (by simp [DistinctKeys])
  · cases hfields

theorem HandlerPos.writes_markCompleted {result : Result} (h : DistinctKeys (.dict result)) :
    (HandlerPos.markCompleted result).Writes := by
  intro now fields hfields
  obtain rfl := Option.some.inj hfields
  apply storable_ofList
  simp only [List.forall_mem_cons, List.not_mem_nil, false_implies, implies_true, and_true]
  exact ⟨trivial, h, trivial⟩

/-- A handler holds a result to write only after the evaluation that returned it. -/
theorem HandlerPos.writes_next {env : WorkerEnv} (hservice : env.service.ReturnsDicts)
    (event : EvalRequestedEvent) {pos pos' : HandlerPos} {e : WorkerEvent}
    (hallows : env.Allows event e) (hnext : pos.next e = some pos') : pos'.Writes := by
  unfold HandlerPos.next at hnext
  split at hnext
  case h_3 result =>
    obtain rfl := Option.some.inj hnext
    obtain ⟨type, -, hreturns⟩ := hallows
    exact writes_markCompleted (hservice type _ _ hreturns)
  case h_13 => cases hnext
  all_goals
    obtain rfl := Option.some.inj hnext
    exact writes_of_ne (fun _ h => (nomatch h))

theorem HeldAgrees.read {now : String} {data fields : Record} (hdata : Storable data)
    (hfields : Storable fields) :
    HeldAgrees ⟨now, data.update fields⟩ ⟨now, (unified data).update fields⟩ := by
  refine ⟨rfl, ?_, hdata.update hfields⟩
  show unified (data.update fields) = unified ((unified data).update fields)
  rw [unified_update, unified_update, hdata.unified_unified]

/-! ## Matching steps -/

section Steps
variable {env : WorkerEnv} (hservice : env.service.ReturnsDicts) {store : Store}
include hservice

/-- A step over records is one over texts. -/
theorem PartyAgrees.forward (hstore : StoreStorable store) {p : Party} {q : Wire.Party}
    (h : PartyAgrees p q) {action : Action} {store' : Store} {stage' : Stage}
    (hstep : PartyStep env store p.event p.stage action store' stage') :
    ∃ q', Wire.PartyStep env (encode store) q (.did ⟨p.event.jobId, action⟩) (encode store') q' ∧
      PartyAgrees ⟨p.event, stage'⟩ q' ∧ StoreStorable store' := by
  cases h with
  | requested hevent =>
    cases hstep with
    | published => exact ⟨_, .published "" "", .queued hevent "" "", hstore⟩
  | queued hevent eventId occurredAt =>
    cases hstep with
    | delivered =>
      refine ⟨_, .delivered (EvalRequestedEvent.ofText_text hevent eventId occurredAt), ?_, hstore⟩
      exact .handling (HandlerPos.writes_of_ne fun _ h => (nomatch h)) .none
  | @handling event pos held held' hpos hheld =>
    cases hstep with
    | @read _ now fields data hfields hget =>
      cases hheld
      obtain ⟨old, hold, rfl⟩ := Option.map_eq_some_iff.mp hget
      have hget' := Wire.updateGet_encode hstore event.jobId fields
      rw [hold] at hget'
      refine ⟨_, .read hfields hget', .handling hpos (.some ?_), hstore⟩
      exact HeldAgrees.read (hstore.getJob hold) (hpos now fields hfields)
    | @missed _ pos' now fields hfields hget hnext =>
      cases hheld
      have hget' := Wire.updateGet_encode hstore event.jobId fields
      rw [Option.map_eq_none_iff.mp hget] at hget'
      refine ⟨_, .missed hfields hget' hnext, .handling ?_ .none, hstore⟩
      exact HandlerPos.writes_next hservice event (e := .updated now) trivial hnext
    | @written _ pos' held hnext =>
      cases hheld with
      | @some _ held' hagrees =>
        have hwrites : pos'.Writes :=
          HandlerPos.writes_next hservice event (e := .updated held.now) trivial hnext
        refine ⟨.handling event pos' none, ?_, .handling hwrites .none,
          hstore.set _ hagrees.storable⟩
        rw [← Wire.updateSet_encode store event.jobId hagrees.data, hagrees.now]
        exact .written (hagrees.now ▸ hnext)
    | evaluated hallows hnext =>
      cases hheld
      exact ⟨_, .evaluated hallows hnext,
        .handling (HandlerPos.writes_next hservice event hallows hnext) .none, hstore⟩
    | reported hnext =>
      cases hheld
      exact ⟨_, .reported hnext,
        .handling (HandlerPos.writes_next hservice event (e := .published) trivial hnext) .none,
        hstore⟩

/-- A step over texts is one over records; none is the failure of a reader. -/
theorem PartyAgrees.backward (hstore : StoreStorable store) {p : Party} {q q' : Wire.Party}
    (h : PartyAgrees p q) {label : Wire.Label} {texts : TextStore}
    (hstep : Wire.PartyStep env (encode store) q label texts q') :
    ∃ action store' stage', label = .did ⟨p.event.jobId, action⟩ ∧ texts = encode store' ∧
      PartyStep env store p.event p.stage action store' stage' ∧
      PartyAgrees ⟨p.event, stage'⟩ q' ∧ StoreStorable store' := by
  cases h with
  | requested hevent =>
    cases hstep with
    | published eventId occurredAt =>
      exact ⟨_, store, _, rfl, rfl, .published, .queued hevent eventId occurredAt, hstore⟩
  | @queued event hevent eventId occurredAt =>
    have hread := EvalRequestedEvent.ofText_text hevent eventId occurredAt
    cases hstep with
    | delivered hevent' =>
      obtain rfl := Option.some.inj (hread.symm.trans hevent')
      refine ⟨_, store, _, rfl, rfl, .delivered, ?_, hstore⟩
      exact .handling (HandlerPos.writes_of_ne fun _ h => (nomatch h)) .none
    | undecodable hevent' => exact absurd (hread.symm.trans hevent') (Option.some_ne_none event)
  | @handling event pos held held' hpos hheld =>
    cases hstep with
    | @read _ _ now fields data hfields hget =>
      cases hheld
      rw [Wire.updateGet_encode hstore, Except.ok.injEq] at hget
      obtain ⟨old, hold, rfl⟩ := Option.map_eq_some_iff.mp hget
      have hget' : updateGet store event.jobId fields = some (old.update fields) :=
        Option.map_eq_some_iff.mpr ⟨old, hold, rfl⟩
      refine ⟨_, store, _, rfl, rfl, .read hfields hget', .handling hpos (.some ?_), hstore⟩
      exact HeldAgrees.read (hstore.getJob hold) (hpos now fields hfields)
    | @missed _ _ pos' now fields hfields hget hnext =>
      cases hheld
      rw [Wire.updateGet_encode hstore, Except.ok.injEq, Option.map_eq_none_iff] at hget
      refine ⟨_, store, _, rfl, rfl, .missed hfields (Option.map_eq_none_iff.mpr hget) hnext,
        .handling ?_ .none, hstore⟩
      exact HandlerPos.writes_next hservice event (e := .updated now) trivial hnext
    | unreadable hfields hget hnext =>
      rw [Wire.updateGet_encode hstore] at hget
      cases hget
    | @written _ _ pos' held' hnext =>
      cases hheld with
      | @some held _ hagrees =>
        have hwrites : pos'.Writes :=
          HandlerPos.writes_next hservice event (e := .updated held'.now) trivial hnext
        refine ⟨.handled (.updated held.now), _, .handling pos' none, ?_,
          Wire.updateSet_encode store event.jobId hagrees.data, ?_, .handling hwrites .none,
          hstore.set _ hagrees.storable⟩
        · rw [hagrees.now]
        · exact .written (hagrees.now ▸ hnext)
    | evaluated hallows hnext =>
      cases hheld
      exact ⟨_, store, _, rfl, rfl, .evaluated hallows hnext,
        .handling (HandlerPos.writes_next hservice event hallows hnext) .none, hstore⟩
    | reported hnext =>
      cases hheld
      exact ⟨_, store, _, rfl, rfl, .reported hnext,
        .handling (HandlerPos.writes_next hservice event (e := .published) trivial hnext) .none,
        hstore⟩

end Steps

theorem SystemAgrees.init : SystemAgrees (.init Dict.empty) .init :=
  ⟨rfl, fun _ _ h => (nomatch h), .nil⟩

/-- Both systems accept a request alike. -/
theorem SystemAgrees.accepted {s : System} {t : Wire.System} (h : SystemAgrees s t)
    {request : EvalRequest} (hloaded : request.Loaded) (jobId now : String) :
    SystemAgrees
      ⟨createJob s.store jobId request.jobType none now,
        s.parties ++ [⟨request.event jobId, .requested⟩]⟩
      ⟨Wire.createJob t.store jobId request.jobType none now,
        t.parties ++ [.requested (request.event jobId)]⟩ where
  store := by
    show Wire.createJob t.store jobId request.jobType none now = _
    rw [h.store, Wire.createJob_encode]
  storable := h.storable.set _ (storable_newRecord jobId request.jobType none now)
  parties := List.rel_append h.parties (.cons (.requested (hloaded.canonical jobId)) .nil)

theorem SystemAgrees.getJob {s : System} {t : Wire.System} (h : SystemAgrees s t) (id : String) :
    Wire.getJob t.store id = .ok ((Jobs.getJob s.store id).map fun data => .dict (unified data).items) := by
  rw [h.store, Wire.getJob_encode h.storable]

theorem SystemAgrees.fresh_iff {s : System} {t : Wire.System} (h : SystemAgrees s t) (id : String) :
    Wire.getJob t.store id = .ok none ↔ Jobs.getJob s.store id = none := by
  rw [h.getJob, Except.ok.injEq, Option.map_eq_none_iff]

/-- The request of the step, if any, was read from its body. -/
def Label.Loaded (l : Label) : Prop :=
  match l.action with
  | .accepted request _ => request.Loaded
  | _ => True

/-- A party accepts no requests. -/
theorem PartyStep.loaded {env : WorkerEnv} {store store' : Store} {event : EvalRequestedEvent}
    {stage stage' : Stage} {action : Action}
    (h : PartyStep env store event stage action store' stage') (id : String) :
    Label.Loaded ⟨id, action⟩ := by
  cases h <;> trivial

section Systems
variable {env : WorkerEnv} (hservice : env.service.ReturnsDicts)
include hservice

theorem SystemAgrees.forward {s s' : System} {t : Wire.System} (h : SystemAgrees s t) {l : Label}
    (hstep : SystemStep env s l s') (hloaded : l.Loaded) :
    ∃ t', Wire.SystemStep env t (.did l) t' ∧ SystemAgrees s' t' := by
  cases hstep with
  | accepted request jobId now hfresh =>
    exact ⟨_, .accepted request jobId now hloaded ((h.fresh_iff jobId).mpr hfresh),
      h.accepted hloaded jobId now⟩
  | @moved event stage stage' action store' before after hparties hstep =>
    have hparts := h.parties
    rw [hparties] at hparts
    obtain ⟨before', q, after', hparties', hbefore, hq, hafter⟩ := forall₂_split_left hparts
    obtain ⟨q', hstep', hq', hstorable⟩ := hq.forward hservice h.storable hstep
    rw [← h.store] at hstep'
    exact ⟨_, .moved before' after' hparties' hstep', rfl, hstorable,
      forall₂_join hbefore hq' hafter⟩

theorem SystemAgrees.backward {s : System} {t t' : Wire.System} (h : SystemAgrees s t)
    {label : Wire.Label} (hstep : Wire.SystemStep env t label t') :
    ∃ l s', label = .did l ∧ l.Loaded ∧ SystemStep env s l s' ∧ SystemAgrees s' t' := by
  cases hstep with
  | accepted request jobId now hloaded hfresh =>
    exact ⟨_, _, rfl, hloaded, .accepted request jobId now ((h.fresh_iff jobId).mp hfresh),
      h.accepted hloaded jobId now⟩
  | @moved q q' _ store' before after hparties hstep =>
    have hparts := h.parties
    rw [hparties] at hparts
    obtain ⟨before', p, after', hparties', hbefore, hp, hafter⟩ := forall₂_split_right hparts
    rw [h.store] at hstep
    obtain ⟨action, store', stage', rfl, rfl, hstep', hq', hstorable⟩ :=
      hp.backward hservice h.storable hstep
    refine ⟨⟨p.event.jobId, action⟩, _, rfl, ?_, .moved before' after' hparties' hstep', rfl,
      hstorable, forall₂_join hbefore hq' hafter⟩
    exact hstep'.loaded _

end Systems

/-- What `get_job` returns over texts is what it returns over records, up to the bits of NaNs. -/
def ServesAlike (s : System) (t : Wire.System) : Prop :=
  ∀ id, Wire.getJob t.store id =
    .ok ((getJob s.store id).map fun data => .dict (unified data).items)

theorem forall₂_did {labels : List Label} {trace : List Wire.Label}
    (h : List.Forall₂ (fun l w => w = Wire.Label.did l ∧ l.Loaded) labels trace) :
    trace = labels.map .did ∧ ∀ l ∈ labels, l.Loaded := by
  induction h with
  | nil => exact ⟨rfl, fun _ h => (nomatch h)⟩
  | cons hl _ ih =>
    obtain ⟨rfl, hloaded⟩ := hl
    exact ⟨congrArg _ ih.1, List.forall_mem_cons.mpr ⟨hloaded, ih.2⟩⟩

/-- Over texts the parties go through the runs they go through over records, on requests read
from their bodies, and through no others. No text is ever unreadable. -/
theorem wire_bisimilar {env : WorkerEnv} (hservice : env.service.ReturnsDicts) :
    (∀ trace t, Run (Wire.SystemStep env) .init trace t →
      ∃ labels s, trace = labels.map .did ∧ (∀ l ∈ labels, l.Loaded) ∧
        Run (SystemStep env) (.init Dict.empty) labels s ∧ ServesAlike s t) ∧
    ∀ labels s, (∀ l ∈ labels, l.Loaded) → Run (SystemStep env) (.init Dict.empty) labels s →
      ∃ t, Run (Wire.SystemStep env) .init (labels.map .did) t ∧ ServesAlike s t := by
  constructor
  · intro trace t h
    obtain ⟨labels, s, hlabels, hrun, hagrees⟩ :=
      h.simulate (R := fun t s => SystemAgrees s t) (L := fun w l => w = Wire.Label.did l ∧ l.Loaded)
        (fun hR hstep => by
          obtain ⟨l, s', hl, hloaded, hstep', hR'⟩ := hR.backward hservice hstep
          exact ⟨l, s', ⟨hl, hloaded⟩, hstep', hR'⟩) .init
    obtain ⟨htrace, hloaded⟩ := forall₂_did hlabels.flip
    exact ⟨labels, s, htrace, hloaded, hrun, hagrees.getJob⟩
  · intro labels s hloaded h
    have hrun : Run (fun s l s' => SystemStep env s l s' ∧ l.Loaded) (.init Dict.empty) labels s :=
      h.with_labels hloaded
    obtain ⟨trace, t, hlabels, hrun', hagrees⟩ :=
      hrun.simulate (R := SystemAgrees) (L := fun l w => w = Wire.Label.did l ∧ l.Loaded)
        (fun hR hstep => by
          obtain ⟨t', hstep', hR'⟩ := hR.forward hservice hstep.1 hstep.2
          exact ⟨_, t', ⟨rfl, hstep.2⟩, hstep', hR'⟩) .init
    obtain ⟨rfl, -⟩ := forall₂_did hlabels
    exact ⟨t, hrun', hagrees.getJob⟩

open Demo in
theorem wire_bisimilar_twoJobs :
    ∃ t, Run (Wire.SystemStep noScoresEnv) .init (twoJobsTrace.map .did) t ∧
      ServesAlike twoJobsEnd t := by
  have hdicts : noScoresEnv.service.ReturnsDicts := by
    rintro type payload result rfl
    simp [noScores, DistinctKeys, DistinctKeysItems]
  have hloaded : ∀ l ∈ twoJobsTrace, l.Loaded := by
    simp [twoJobsTrace, Label.Loaded, question, EvalRequest.Loaded]
  exact (wire_bisimilar hdicts).2 _ _ hloaded twoJobs_run

end RagEval.Jobs
