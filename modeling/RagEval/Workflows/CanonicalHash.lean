import Mathlib.Tactic.MkIffOfInductiveProp
import RagEval.Workflows.ModelDump

/-!
# The hash of a definition

What `compute_hash` tells of a definition.

## Main result

- `canonicalString_eq_iff` — the hashed strings of two definitions are equal exactly when
  the definitions agree on everything but their version and metadata
-/

namespace RagEval.Workflows
open RagEval.Lib

/-! ## Content -/

/-- Two dictionaries have the same keys, with related values under them. -/
def SameDict {α : Type} (R : α → α → Prop) (d e : Dict String α) : Prop :=
  ∀ k, Option.Rel R (d.get? k) (e.get? k)

/-- The same double, all NaNs being one. -/
def SameFloat (x y : BitVec 64) : Prop :=
  x = y ∨ Num.ofFloat x = .nan ∧ Num.ofFloat y = .nan

/-- Two steps agree, their dictionaries regardless of the order of keys. -/
@[mk_iff]
structure SameStep (s t : WorkflowStep) : Prop where
  id : s.id = t.id
  type : s.type = t.type
  implementation : s.implementation = t.implementation
  configRef : s.configRef = t.configRef
  configOverride : SameDict Json.Same s.configOverride t.configOverride
  inputs : Option.Rel (SameDict Eq) s.inputs t.inputs
  outputs : s.outputs = t.outputs
  condition : s.condition = t.condition
  retryPolicy : Option.Rel (SameDict Json.Same) s.retryPolicy t.retryPolicy

/-- Two definitions agree on every field except `version` and `metadata`. -/
@[mk_iff]
structure SameContent (d e : WorkflowDefinition) : Prop where
  id : d.id = e.id
  name : d.name = e.name
  description : d.description = e.description
  inputSchema : d.inputSchema = e.inputSchema
  outputSchema : d.outputSchema = e.outputSchema
  steps : List.Forall₂ SameStep d.steps e.steps
  edges : d.edges = e.edges
  qualityGates : SameDict SameFloat d.qualityGates e.qualityGates
  tenantId : d.tenantId = e.tenantId
  createdBy : d.createdBy = e.createdBy

mutual
/-- A value of a JSON document: its numbers are finite, the keys of its objects distinct. -/
def IsJson : Value → Prop
  | .float x => ∃ m e, Num.ofFloat x = .fin m e
  | .list vs => IsJsonList vs
  | .dict kvs => (kvs.map Prod.fst).Nodup ∧ IsJsonItems kvs
  | .none | .bool _ | .int _ | .str _ => True

def IsJsonList : List Value → Prop
  | [] => True
  | v :: vs => IsJson v ∧ IsJsonList vs

def IsJsonItems : List (String × Value) → Prop
  | [] => True
  | (_, v) :: kvs => IsJson v ∧ IsJsonItems kvs
end

mutual
theorem IsJson.distinctKeys : ∀ {v : Value}, IsJson v → Json.DistinctKeys v
  | .none, _ | .bool _, _ | .int _, _ | .float _, _ | .str _, _ => trivial
  | .list _, h => isJsonList_distinctKeys h
  | .dict _, h => ⟨h.1, isJsonItems_distinctKeys h.2⟩

theorem isJsonList_distinctKeys : ∀ {vs : List Value}, IsJsonList vs → Json.DistinctKeysList vs
  | [], _ => trivial
  | _ :: _, h => ⟨h.1.distinctKeys, isJsonList_distinctKeys h.2⟩

theorem isJsonItems_distinctKeys : ∀ {kvs : List (String × Value)}, IsJsonItems kvs →
    Json.DistinctKeysItems kvs
  | [], _ => trivial
  | _ :: _, h => ⟨h.1.distinctKeys, isJsonItems_distinctKeys h.2⟩
end

mutual
/-- Dumping leaves the values of a JSON document as they are. -/
theorem dumpAny_of_isJson (pd : Pydantic) : ∀ {v : Value}, IsJson v → dumpAny pd v = v
  | .none, _ | .bool _, _ | .int _, _ | .str _, _ => rfl
  | .float x, h => by
    obtain ⟨m, e, hx⟩ := h
    simp only [dumpAny, hx]
  | .list _, h => congrArg Value.list (dumpAnys_of_isJson pd h)
  | .dict _, h => congrArg Value.dict (dumpAnyItems_of_isJson pd h.2)

theorem dumpAnys_of_isJson (pd : Pydantic) : ∀ {vs : List Value}, IsJsonList vs → dumpAnys pd vs = vs
  | [], _ => rfl
  | _ :: _, h => congrArg₂ List.cons (dumpAny_of_isJson pd h.1) (dumpAnys_of_isJson pd h.2)

theorem dumpAnyItems_of_isJson (pd : Pydantic) : ∀ {kvs : List (String × Value)}, IsJsonItems kvs →
    dumpAnyItems pd kvs = kvs
  | [], _ => rfl
  | (k, _) :: _, h => congrArg₂ List.cons (congrArg (Prod.mk k) (dumpAny_of_isJson pd h.1))
      (dumpAnyItems_of_isJson pd h.2)
end

/-- The values of a dictionary declared as `dict[str, Any]` are those of a document. -/
def JsonValues (d : Dict String Value) : Prop := ∀ k v, d.get? k = some v → IsJson v

/-- What the steps leave untyped is from a JSON document. -/
def FromJson (d : WorkflowDefinition) : Prop :=
  ∀ step ∈ d.steps, JsonValues step.configOverride ∧ ∀ p, step.retryPolicy = some p → JsonValues p

/-! ## The dump tells the content -/

theorem same_str_iff {a b : String} : Json.Same (.str a) (.str b) ↔ a = b := by
  simp [Json.Same, eq_comm]

theorem same_float_iff {x y : BitVec 64} : Json.Same (.float x) (.float y) ↔ SameFloat x y := by
  simp [Json.Same, SameFloat]

theorem same_none_iff {v : Value} : Json.Same v .none ↔ v = .none := by
  cases v <;> simp [Json.Same]

theorem same_list_iff {α : Type} (dump : α → Value) (R : α → α → Prop) {l l' : List α}
    (hR : ∀ a ∈ l, ∀ b ∈ l', (Json.Same (dump a) (dump b) ↔ R a b)) :
    Json.Same (.list (l.map dump)) (.list (l'.map dump)) ↔ List.Forall₂ R l l' := by
  have hlist : Json.Same (.list (l.map dump)) (.list (l'.map dump)) ↔
      Json.SameList (l.map dump) (l'.map dump) := by simp [Json.Same]
  rw [hlist]
  induction l generalizing l' with
  | nil => cases l' <;> simp [Json.SameList]
  | cons a l ih =>
    cases l' with
    | nil => simp [Json.SameList]
    | cons b l' =>
      have htail : Json.SameList (l.map dump) (l'.map dump) ↔ List.Forall₂ R l l' :=
        ih (fun x hx y hy => hR x (List.mem_cons_of_mem _ hx) y (List.mem_cons_of_mem _ hy))
          (by simp [Json.Same])
      simp [Json.SameList, hR a (List.mem_cons_self ..) b (List.mem_cons_self ..), htail]

theorem same_dumpOption_iff {α : Type} (dump : α → Value) (R : α → α → Prop) {a b : Option α}
    (hdump : ∀ x, dump x ≠ .none)
    (hR : ∀ x, a = some x → ∀ y, b = some y → (Json.Same (dump x) (dump y) ↔ R x y)) :
    Json.Same (dumpOption dump a) (dumpOption dump b) ↔ Option.Rel R a b := by
  cases a with
  | none =>
    cases b with
    | none => simp [dumpOption, Json.Same]
    | some y => simp [dumpOption, Json.Same, hdump]
  | some x =>
    cases b with
    | none => simp [dumpOption, same_none_iff, hdump]
    | some y => simp [dumpOption, hR]

theorem same_dumpDict_iff {α : Type} (dump : α → Value) (R : α → α → Prop) {d e : Dict String α}
    (hR : ∀ k x y, d.get? k = some x → e.get? k = some y → (Json.Same (dump x) (dump y) ↔ R x y)) :
    Json.Same (dumpDict dump d) (dumpDict dump e) ↔ SameDict R d e := by
  rw [dumpDict, dumpDict, Json.same_dict_iff (d.mapValues dump).nodup_keys
    (e.mapValues dump).nodup_keys]
  refine forall_congr' fun k => ?_
  show Option.Rel Json.Same ((d.mapValues dump).get? k) ((e.mapValues dump).get? k) ↔ _
  rw [Dict.get?_mapValues, Dict.get?_mapValues]
  have hk := hR k
  cases hd : d.get? k <;> cases he : e.get? k <;> simp [hd, he] at hk ⊢
  exact hk

theorem same_dumpOption_str_iff {a b : Option String} :
    Json.Same (dumpOption .str a) (dumpOption .str b) ↔ a = b := by
  rw [same_dumpOption_iff Value.str Eq (fun _ h => nomatch h) fun _ _ _ _ => same_str_iff]
  cases a <;> cases b <;> simp

/-- Untyped dictionaries from JSON documents are dumped as they are. -/
theorem same_dumpAny_iff (pd : Pydantic) {d e : Dict String Value} (hd : JsonValues d)
    (he : JsonValues e) :
    Json.Same (dumpDict (dumpAny pd) d) (dumpDict (dumpAny pd) e) ↔ SameDict Json.Same d e := by
  apply same_dumpDict_iff
  intro k x y hx hy
  rw [dumpAny_of_isJson pd (hd k x hx), dumpAny_of_isJson pd (he k y hy)]

theorem NodeType.value_injective : Function.Injective NodeType.value := by
  intro a b h
  cases a <;> cases b <;> first | rfl | exact absurd h (by decide)

theorem same_step_iff (pd : Pydantic) {s t : WorkflowStep}
    (hs : JsonValues s.configOverride ∧ ∀ p, s.retryPolicy = some p → JsonValues p)
    (ht : JsonValues t.configOverride ∧ ∀ p, t.retryPolicy = some p → JsonValues p) :
    Json.Same (s.modelDump pd) (t.modelDump pd) ↔ SameStep s t := by
  let dumpOutputs : List String → Value := fun outputs => .list (outputs.map .str)
  have houtputs : Json.Same (dumpOption dumpOutputs s.outputs) (dumpOption dumpOutputs t.outputs) ↔
      s.outputs = t.outputs := by
    rw [same_dumpOption_iff dumpOutputs Eq (fun _ h => nomatch h)]
    · cases s.outputs <;> cases t.outputs <;> simp
    · intro x _ y _
      rw [same_list_iff Value.str Eq fun _ _ _ _ => same_str_iff, List.forall₂_eq_eq_eq]
  have hinputs : Json.Same (dumpOption (dumpDict .str) s.inputs) (dumpOption (dumpDict .str) t.inputs) ↔
      Option.Rel (SameDict Eq) s.inputs t.inputs :=
    same_dumpOption_iff (dumpDict Value.str) _ (fun _ h => nomatch h) fun _ _ _ _ =>
      same_dumpDict_iff Value.str Eq fun _ _ _ _ _ => same_str_iff
  have hretry : Json.Same (dumpOption (dumpDict (dumpAny pd)) s.retryPolicy)
      (dumpOption (dumpDict (dumpAny pd)) t.retryPolicy) ↔
      Option.Rel (SameDict Json.Same) s.retryPolicy t.retryPolicy :=
    same_dumpOption_iff (dumpDict (dumpAny pd)) _ (fun _ h => nomatch h) fun x hx y hy =>
      same_dumpAny_iff pd (hs.2 x hx) (ht.2 y hy)
  -- both steps are dumped with the same keys in the same order, so field is compared with field
  rw [WorkflowStep.modelDump, WorkflowStep.modelDump]
  rw [Json.same_record_iff (by rfl) (by simp)]
  simp only [List.forall₂_cons, List.forall₂_nil_left_iff, same_str_iff, same_dumpOption_str_iff,
    same_dumpAny_iff pd hs.1 ht.1, hinputs, hretry, NodeType.value_injective.eq_iff, and_true]
  rw [houtputs, sameStep_iff]

theorem same_edge_iff (e f : WorkflowEdge) : Json.Same e.modelDump f.modelDump ↔ e = f := by
  have hint : ∀ i j : Int, Json.Same (.int i) (.int j) ↔ i = j := by
    intro i j
    simp [Json.Same, eq_comm]
  rw [WorkflowEdge.modelDump, WorkflowEdge.modelDump, Json.same_record_iff (by rfl) (by simp)]
  simp only [List.forall₂_cons, List.forall₂_nil_left_iff, same_str_iff, same_dumpOption_str_iff,
    hint, Int.natCast_inj, ← Fin.ext_iff, and_true]
  cases e
  cases f
  simp

/-- The fields that are hashed. -/
theorem modelDump_eq (pd : Pydantic) (d : WorkflowDefinition) :
    d.modelDump pd ["metadata", "version"] = .dict
      [("id", .str d.id), ("name", dumpOption .str d.name),
       ("description", dumpOption .str d.description),
       ("input_schema", dumpOption .str d.inputSchema),
       ("output_schema", dumpOption .str d.outputSchema),
       ("steps", .list (d.steps.map (WorkflowStep.modelDump pd))),
       ("edges", .list (d.edges.map WorkflowEdge.modelDump)),
       ("quality_gates", dumpDict .float d.qualityGates),
       ("tenant_id", dumpOption .str d.tenantId), ("created_by", dumpOption .str d.createdBy)] := by
  simp [WorkflowDefinition.modelDump]

/-- The dumps without metadata and version are the same for definitions that agree. -/
theorem same_modelDump_iff (pd : Pydantic) {d e : WorkflowDefinition} (hd : FromJson d)
    (he : FromJson e) :
    Json.Same (d.modelDump pd ["metadata", "version"]) (e.modelDump pd ["metadata", "version"]) ↔
      SameContent d e := by
  have hsteps : Json.Same (.list (d.steps.map (WorkflowStep.modelDump pd)))
      (.list (e.steps.map (WorkflowStep.modelDump pd))) ↔ List.Forall₂ SameStep d.steps e.steps :=
    same_list_iff _ _ fun s hs t ht => same_step_iff pd (hd s hs) (he t ht)
  have hedges : Json.Same (.list (d.edges.map WorkflowEdge.modelDump))
      (.list (e.edges.map WorkflowEdge.modelDump)) ↔ d.edges = e.edges := by
    rw [same_list_iff WorkflowEdge.modelDump Eq fun _ _ _ _ => same_edge_iff _ _,
      List.forall₂_eq_eq_eq]
  have hgates : Json.Same (dumpDict .float d.qualityGates) (dumpDict .float e.qualityGates) ↔
      SameDict SameFloat d.qualityGates e.qualityGates :=
    same_dumpDict_iff Value.float _ fun _ _ _ _ _ => same_float_iff
  rw [modelDump_eq, modelDump_eq, Json.same_record_iff (by rfl) (by simp)]
  simp only [List.forall₂_cons, List.forall₂_nil_left_iff, same_str_iff, same_dumpOption_str_iff,
    hsteps, hedges, hgates, and_true]
  rw [sameContent_iff]

/-! ## Keys of a dump -/

theorem distinctKeysItems_iff {kvs : List (String × Value)} :
    Json.DistinctKeysItems kvs ↔ ∀ kv ∈ kvs, Json.DistinctKeys kv.2 := by
  induction kvs with
  | nil => simp [Json.DistinctKeysItems]
  | cons kv kvs ih => simp [Json.DistinctKeysItems, ih]

theorem distinctKeysList_iff {vs : List Value} :
    Json.DistinctKeysList vs ↔ ∀ v ∈ vs, Json.DistinctKeys v := by
  induction vs with
  | nil => simp [Json.DistinctKeysList]
  | cons v vs ih => simp [Json.DistinctKeysList, ih]

theorem distinctKeys_dumpDict {α : Type} {dump : α → Value} {d : Dict String α}
    (h : ∀ k x, d.get? k = some x → Json.DistinctKeys (dump x)) :
    Json.DistinctKeys (dumpDict dump d) := by
  refine ⟨(d.mapValues dump).nodup_keys, distinctKeysItems_iff.mpr ?_⟩
  rintro ⟨k, v⟩ hmem
  have hget := (Dict.get?_eq_some_iff _ _ _).mpr hmem
  rw [Dict.get?_mapValues, Option.map_eq_some_iff] at hget
  obtain ⟨x, hx, rfl⟩ := hget
  exact h k x hx

theorem distinctKeys_dumpOption {α : Type} {dump : α → Value} {a : Option α}
    (h : ∀ x, a = some x → Json.DistinctKeys (dump x)) : Json.DistinctKeys (dumpOption dump a) := by
  cases a with
  | none => trivial
  | some x => exact h x rfl

theorem distinctKeys_dumpAny (pd : Pydantic) {d : Dict String Value} (h : JsonValues d) :
    Json.DistinctKeys (dumpDict (dumpAny pd) d) :=
  distinctKeys_dumpDict fun k x hx => by
    rw [dumpAny_of_isJson pd (h k x hx)]
    exact (h k x hx).distinctKeys

theorem distinctKeys_step (pd : Pydantic) {s : WorkflowStep}
    (hs : JsonValues s.configOverride ∧ ∀ p, s.retryPolicy = some p → JsonValues p) :
    Json.DistinctKeys (s.modelDump pd) := by
  refine ⟨by simp, ?_⟩
  have hstr : ∀ a : Option String, Json.DistinctKeys (dumpOption .str a) := fun _ =>
    distinctKeys_dumpOption fun _ _ => trivial
  have hinputs : Json.DistinctKeys (dumpOption (dumpDict .str) s.inputs) :=
    distinctKeys_dumpOption fun _ _ => distinctKeys_dumpDict fun _ _ _ => trivial
  have houtputs : Json.DistinctKeys (dumpOption (fun outputs => .list (outputs.map .str)) s.outputs) :=
    distinctKeys_dumpOption fun outputs _ => distinctKeysList_iff.mpr fun v hv => by
      obtain ⟨o, -, rfl⟩ := List.mem_map.mp hv
      trivial
  have hretry : Json.DistinctKeys (dumpOption (dumpDict (dumpAny pd)) s.retryPolicy) :=
    distinctKeys_dumpOption fun p hp => distinctKeys_dumpAny pd (hs.2 p hp)
  exact ⟨trivial, trivial, trivial, hstr _, distinctKeys_dumpAny pd hs.1, hinputs, houtputs,
    hstr _, hretry, trivial⟩

theorem distinctKeys_modelDump (pd : Pydantic) {d : WorkflowDefinition} (hd : FromJson d) :
    Json.DistinctKeys (d.modelDump pd ["metadata", "version"]) := by
  rw [modelDump_eq]
  refine ⟨by simp, ?_⟩
  have hstr : ∀ a : Option String, Json.DistinctKeys (dumpOption .str a) := fun _ =>
    distinctKeys_dumpOption fun _ _ => trivial
  have hsteps : Json.DistinctKeysList (d.steps.map (WorkflowStep.modelDump pd)) :=
    distinctKeysList_iff.mpr fun v hv => by
      obtain ⟨step, hstep, rfl⟩ := List.mem_map.mp hv
      exact distinctKeys_step pd (hd step hstep)
  have hedges : Json.DistinctKeysList (d.edges.map WorkflowEdge.modelDump) :=
    distinctKeysList_iff.mpr fun v hv => by
      obtain ⟨edge, -, rfl⟩ := List.mem_map.mp hv
      exact ⟨by simp, trivial, trivial, hstr _, trivial, trivial⟩
  exact ⟨trivial, hstr _, hstr _, hstr _, hstr _, hsteps, hedges,
    distinctKeys_dumpDict fun _ _ _ => trivial, hstr _, hstr _, trivial⟩

/-! ## Definitions from JSON documents -/

theorem isJson_of_get {fields : List (String × Value)} (h : IsJsonItems fields) {key : String}
    {v : Value} (hget : Assoc.get key fields = some v) : IsJson v := by
  induction fields with
  | nil => cases hget
  | cons kv fields ih =>
    simp only [Assoc.get] at hget
    split at hget
    · obtain rfl := Option.some.inj hget
      exact h.1
    · exact ih h.2 hget

theorem readEntries_readAny_ok {kvs entries : List (String × Value)}
    (h : readEntries readAny kvs = .ok entries) : entries = kvs := by
  induction kvs generalizing entries with
  | nil => exact (Except.ok.inj h).symm
  | cons kv kvs ih =>
    obtain ⟨g, rest, hg, hrest, rfl⟩ := Validated.ap_ok h
    obtain ⟨g', v, hg', hv, rfl⟩ := Validated.ap_ok hg
    obtain rfl := Except.ok.inj hg'
    obtain rfl := Except.ok.inj (Validated.located_ok hv)
    rw [ih hrest]

theorem jsonValues_of_readDict {v : Value} {d : Dict String Value} (hv : IsJson v)
    (h : readDict readAny v = .ok d) : JsonValues d := by
  cases v with
  | dict kvs =>
    cases hentries : readEntries readAny kvs with
    | error e =>
      rw [readDict, hentries] at h
      cases h
    | ok entries =>
      rw [readDict, hentries] at h
      obtain rfl := readEntries_readAny_ok hentries
      obtain rfl := Except.ok.inj h
      intro k v hget
      have hmem := Dict.mem_of_get?_ofList hget
      have hnodup := hv.1
      exact isJson_of_get hv.2 (Assoc.get_eq_some_of_mem hnodup hmem)
  | _ => cases h

theorem nullable_ok {α : Type} {read : Value → Validated α} {v : Value} {a : α}
    (h : nullable read v = .ok (some a)) : read v = .ok a := by
  unfold nullable at h
  split at h
  · cases h
  · cases hread : read v with
    | error e =>
      rw [hread] at h
      cases h
    | ok b =>
      rw [hread] at h
      rw [Option.some.inj (Except.ok.inj h)]

/-- The untyped parts of a step from a JSON document are from the document. -/
theorem WorkflowStep.jsonValues_of_modelValidate {v : Value} {step : WorkflowStep} (hv : IsJson v)
    (h : WorkflowStep.modelValidate v = .ok step) :
    JsonValues step.configOverride ∧ ∀ p, step.retryPolicy = some p → JsonValues p := by
  cases v with
  | dict fields =>
    obtain ⟨g1, retryPolicy, h1, hretry, rfl⟩ := Validated.ap_ok h
    obtain ⟨g2, condition, h2, -, rfl⟩ := Validated.ap_ok h1
    obtain ⟨g3, outputs, h3, -, rfl⟩ := Validated.ap_ok h2
    obtain ⟨g4, inputs, h4, -, rfl⟩ := Validated.ap_ok h3
    obtain ⟨g5, configOverride, h5, hconfig, rfl⟩ := Validated.ap_ok h4
    obtain ⟨g6, configRef, h6, -, rfl⟩ := Validated.ap_ok h5
    obtain ⟨g7, implementation, h7, -, rfl⟩ := Validated.ap_ok h6
    obtain ⟨g8, type, h8, -, rfl⟩ := Validated.ap_ok h7
    obtain ⟨g9, id, h9, -, rfl⟩ := Validated.ap_ok h8
    obtain rfl := Except.ok.inj h9
    refine ⟨?_, ?_⟩
    · obtain ⟨-, rfl⟩ | ⟨v, hget, hread⟩ := optional_ok_iff.mp hconfig
      · exact fun _ _ h => (nomatch h)
      · exact jsonValues_of_readDict (isJson_of_get hv.2 hget) hread
    · intro p hp
      obtain ⟨-, hnone⟩ | ⟨v, hget, hread⟩ := optional_ok_iff.mp hretry
      · rw [show retryPolicy = some p from hp] at hnone
        cases hnone
      · rw [show retryPolicy = some p from hp] at hread
        exact jsonValues_of_readDict (isJson_of_get hv.2 hget) (nullable_ok hread)
  | _ => cases h

/-- What is read of a list is read of its items. -/
theorem readItems_ok {α : Type} {read : Value → Validated α} {i : Nat} {vs : List Value} {as : List α}
    (h : readItems read i vs = .ok as) : ∀ a ∈ as, ∃ v ∈ vs, read v = .ok a := by
  induction vs generalizing i as with
  | nil =>
    obtain rfl := Except.ok.inj h
    exact fun _ ha => (nomatch ha)
  | cons v vs ih =>
    obtain ⟨g, rest, hg, hrest, rfl⟩ := Validated.ap_ok h
    obtain ⟨g', b, hg', hb, rfl⟩ := Validated.ap_ok hg
    obtain rfl := Except.ok.inj hg'
    intro a ha
    obtain rfl | ha := List.mem_cons.mp ha
    · exact ⟨v, List.mem_cons_self .., Validated.located_ok hb⟩
    · obtain ⟨w, hw, hread⟩ := ih hrest a ha
      exact ⟨w, List.mem_cons_of_mem _ hw, hread⟩

theorem readList_ok {α : Type} {read : Value → Validated α} {v : Value} {as : List α}
    (h : readList read v = .ok as) : ∃ vs, v = .list vs ∧ ∀ a ∈ as, ∃ w ∈ vs, read w = .ok a := by
  cases v with
  | list vs => exact ⟨vs, rfl, readItems_ok h⟩
  | _ => cases h

theorem isJson_of_mem {vs : List Value} (h : IsJsonList vs) : ∀ v ∈ vs, IsJson v := by
  induction vs with
  | nil => exact fun _ hv => (nomatch hv)
  | cons v vs ih => exact List.forall_mem_cons.mpr ⟨h.1, ih h.2⟩

namespace WorkflowDefinition

theorem computeHash_ok {pd : Pydantic} {sha256 : String → String} {d : WorkflowDefinition}
    {hash : String} (h : d.computeHash pd sha256 = .ok hash) :
    hash = truncated sha256 (d.canonicalString pd) := by
  unfold computeHash at h
  split at h
  · cases h
  · exact (Except.ok.inj h).symm

/-- The steps of an accepted definition are the default, or those read under `steps`. -/
theorem modelValidate_steps {pd : Pydantic} {definition : Dict String Value} {d : WorkflowDefinition}
    (h : modelValidate pd definition = .ok d) :
    optional "steps" [] readSteps definition.items = .ok d.steps :=
  (readFrom_of_modelValidate h).steps

/-- What is read as the steps is a list of them, and the field validator lets no empty one
through. -/
theorem readSteps_ok {v : Value} {steps : List WorkflowStep} (h : readSteps v = .ok steps) :
    readList WorkflowStep.modelValidate v = .ok steps ∧ steps ≠ [] := by
  obtain ⟨read, hread, h⟩ := bind_ok h
  have hvalidate := mapError_ok h
  rw [validateStepsNotEmpty] at hvalidate
  split at hvalidate
  · cases hvalidate
  · next hne =>
    obtain rfl := Except.ok.inj hvalidate
    exact ⟨hread, hne⟩

theorem fromJson_of_modelValidate {pd : Pydantic} {definition : Dict String Value}
    {d : WorkflowDefinition} (hjson : IsJson (.dict definition.items))
    (h : modelValidate pd definition = .ok d) : FromJson d := by
  obtain ⟨-, hnil⟩ | ⟨v, hget, hread⟩ := optional_ok_iff.mp (modelValidate_steps h)
  · rw [FromJson, hnil]
    exact fun _ hstep => (nomatch hstep)
  · obtain ⟨vs, rfl, hitems⟩ := readList_ok (readSteps_ok hread).1
    have hvs : IsJsonList vs := isJson_of_get hjson.2 hget
    intro step hstep
    obtain ⟨w, hw, hvalidate⟩ := hitems step hstep
    exact WorkflowStep.jsonValues_of_modelValidate (isJson_of_mem hvs w hw) hvalidate

end WorkflowDefinition

/-- Two definitions from JSON documents have one hashed string exactly when they agree on
every field but `version` and `metadata`, the order of keys apart. As long as the truncated
digests of the two strings do not collide, the same goes for their hashes. -/
theorem canonicalString_eq_iff (pd : Pydantic) (sha256 : String → String)
    (a b : Dict String Value) (ha : IsJson (.dict a.items)) (hb : IsJson (.dict b.items))
    (d e : WorkflowDefinition) (hd : WorkflowDefinition.modelValidate pd a = .ok d)
    (he : WorkflowDefinition.modelValidate pd b = .ok e) :
    (d.canonicalString pd = e.canonicalString pd ↔ SameContent d e) ∧
      ((WorkflowDefinition.truncated sha256 (d.canonicalString pd) =
          WorkflowDefinition.truncated sha256 (e.canonicalString pd) →
        d.canonicalString pd = e.canonicalString pd) →
      ∀ x y, d.computeHash pd sha256 = .ok x → e.computeHash pd sha256 = .ok y →
        (x = y ↔ SameContent d e)) := by
  have hd := WorkflowDefinition.fromJson_of_modelValidate ha hd
  have he := WorkflowDefinition.fromJson_of_modelValidate hb he
  have hcanonical : d.canonicalString pd = e.canonicalString pd ↔ SameContent d e := by
    rw [WorkflowDefinition.canonicalString, WorkflowDefinition.canonicalString,
      Json.dumps_eq_iff (distinctKeys_modelDump pd hd) (distinctKeys_modelDump pd he),
      same_modelDump_iff pd hd he]
  refine ⟨hcanonical, fun hcollision x y hx hy => ?_⟩
  rw [← hcanonical, WorkflowDefinition.computeHash_ok hx, WorkflowDefinition.computeHash_ok hy]
  exact ⟨hcollision, congrArg _⟩

namespace HashDemo

/-- Pydantic on documents whose numbers are of the declared types. -/
def strictPydantic : Pydantic where
  coerceInt _ := none
  coerceFloat _ := none
  dumpRaises _ := none
  dumpNonFinite _ := .none
  errorText _ := "validation error"
  exceptionText _ := "exception"

/-- The digest of the one canonical string the two dictionaries have. -/
def sha256 (_ : String) : String := "f49ac0eb5df6ac33c2a51b4b9997a9c13bcc5b4d18ff2b168ca834ad823e520b"

/-- A step, its overrides in either order. -/
def stepDict (overrides : List (String × Value)) : Value := .dict
  [("id", .str "split"), ("type", .str "chunking"),
   ("implementation", .str "recursive_text_splitter"), ("config_override", .dict overrides)]

def embedDict : Value := .dict
  [("id", .str "embed"), ("type", .str "embedding"), ("implementation", .str "openai_embedding")]

def byAlias : Dict String Value where
  items :=
    [("id", .str "wf"),
     ("steps", .list [stepDict [("chunk_size", .int 500), ("chunk_overlap", .int 50)], embedDict]),
     ("edges", .list [.dict [("from", .str "split"), ("to", .str "embed")]])]
  nodup_keys := by simp

/-- The same by the names of the fields, in another order, as another version. -/
def byName : Dict String Value where
  items :=
    [("edges", .list [.dict [("to_step", .str "embed"), ("from_step", .str "split")]]),
     ("steps", .list [stepDict [("chunk_overlap", .int 50), ("chunk_size", .int 500)], embedDict]),
     ("metadata", .dict [("owner", .str "alice")]), ("version", .int 2), ("id", .str "wf")]
  nodup_keys := by simp

def overrides : Dict String Value := Dict.ofList [("chunk_size", .int 500), ("chunk_overlap", .int 50)]

def overrides' : Dict String Value := Dict.ofList [("chunk_overlap", .int 50), ("chunk_size", .int 500)]

def definition (version : Nat) (version_pos : 1 ≤ version)
    (metadata overrides : Dict String Value) : WorkflowDefinition where
  id := "wf"
  version := version
  version_pos := version_pos
  steps := [
    ⟨"split", .chunking, "recursive_text_splitter", none, overrides, none, none, none, none⟩,
    ⟨"embed", .embedding, "openai_embedding", none, Dict.empty, none, none, none, none⟩]
  edges := [⟨"split", "embed", none, 0⟩]
  metadata := metadata

end HashDemo

open HashDemo in
theorem canonicalString_eq_iff_reordered :
    (definition 1 le_rfl Dict.empty overrides).computeHash strictPydantic sha256 =
        .ok "f49ac0eb5df6ac33c2a51b4b9997a9c1" ∧
      SameContent (definition 1 le_rfl Dict.empty overrides)
        (definition 2 (by decide) (Dict.ofList [("owner", .str "alice")]) overrides') := by
  have halias : IsJson (.dict byAlias.items) := by
    simp [byAlias, stepDict, embedDict, IsJson, IsJsonItems, IsJsonList]
  have hname : IsJson (.dict byName.items) := by
    simp [byName, stepDict, embedDict, IsJson, IsJsonItems, IsJsonList]
  have h := canonicalString_eq_iff strictPydantic sha256 byAlias byName halias hname _ _ rfl rfl
  have hhash := h.2 (fun _ => rfl) _ _ rfl rfl
  exact ⟨rfl, hhash.mp rfl⟩

end RagEval.Workflows
