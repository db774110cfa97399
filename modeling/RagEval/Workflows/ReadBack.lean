import RagEval.Lib.JsonLoaded
import RagEval.Workflows.CanonicalHash

/-!
# The hashed text reads back

What `compute_hash` hashes is itself a workflow document. Each reader of `model_validate` takes
the dump of a value, with its keys in any order, back to the value; put together, the hashed
text is validated into a definition of the same content.

## Main definitions

- `ReadsBack` — a reader undoes a dump

## Main result

- `modelValidate_canonicalString_iff` — the definitions whose hashed text reads back
-/

namespace RagEval.Workflows
open RagEval.Lib

/-! ## Readers -/

/-- Whatever is the same JSON value as the dump is read, as something related to what was
dumped. -/
def ReadsBack {α β : Type} (dump : α → Value) (read : Value → Validated β) (R : α → β → Prop)
    (a : α) : Prop :=
  ∀ v, Json.DistinctKeys v → Json.Same (dump a) v → ∃ b, read v = .ok b ∧ R a b

theorem readsBack_str (s : String) : ReadsBack .str readStr Eq s := by
  rintro v - rfl
  exact ⟨s, rfl, rfl⟩

theorem readsBack_float (pd : Pydantic) (x : BitVec 64) :
    ReadsBack .float (readFloat pd) SameFloat x := by
  rintro v - ⟨y, rfl, hxy⟩
  exact ⟨y, rfl, hxy⟩

theorem readsBack_any (pd : Pydantic) {v : Value} (hv : IsJson v) :
    ReadsBack (dumpAny pd) readAny Json.Same v := by
  rintro w - hw
  rw [dumpAny_of_isJson pd hv] at hw
  exact ⟨w, rfl, hw⟩

theorem readsBack_nodeType (type : NodeType) :
    ReadsBack (fun type => .str (NodeType.value type)) NodeType.modelValidate Eq type := by
  rintro v - rfl
  refine ⟨type, ?_, rfl⟩
  cases type <;> rfl

theorem readsBack_priority (pd : Pydantic) (priority : Fin 101) :
    ReadsBack (fun p : Fin 101 => .int p.val) (readPriority pd) Eq priority := by
  rintro v - rfl
  refine ⟨priority, ?_, rfl⟩
  have hle : ((priority.val : Nat) : Int) ≤ 100 := by omega
  simp [readPriority, readInt, bind, Except.bind, hle]

section
variable {α : Type} {dump : α → Value} {read : Value → Validated α} {R : α → α → Prop}

theorem nullable_of_ne_none {β : Type} (read : Value → Validated β) {v : Value} (h : v ≠ .none) :
    nullable read v = (read v).map some := by
  cases v with
  | none => exact absurd rfl h
  | _ => rfl

theorem readsBack_option {o : Option α} (hdump : ∀ a, dump a ≠ .none)
    (h : ∀ a, o = some a → ReadsBack dump read R a) :
    ReadsBack (dumpOption dump) (nullable read) (Option.Rel R) o := by
  intro v hv hsame
  cases o with
  | none =>
    obtain rfl : v = .none := hsame
    exact ⟨none, rfl, .none⟩
  | some a =>
    have hne : v ≠ .none := by
      rintro rfl
      exact hdump a (same_none_iff.mp hsame)
    obtain ⟨b, hb, hab⟩ := h a rfl v hv hsame
    refine ⟨some b, ?_, .some hab⟩
    rw [nullable_of_ne_none read hne, hb]
    rfl

theorem readsBack_items {l : List α} (h : ∀ a ∈ l, ReadsBack dump read R a) (i : Nat) :
    ∀ vs, Json.DistinctKeysList vs → Json.SameList (l.map dump) vs →
      ∃ l', readItems read i vs = .ok l' ∧ List.Forall₂ R l l' := by
  induction l generalizing i with
  | nil =>
    rintro vs - rfl
    exact ⟨[], rfl, .nil⟩
  | cons a l ih =>
    rintro _ hvs ⟨w, ws, rfl, hw, hws⟩
    rw [List.forall_mem_cons] at h
    obtain ⟨b, hb, hab⟩ := h.1 w hvs.1 hw
    obtain ⟨l', hl', hrel⟩ := ih h.2 (i + 1) ws hvs.2 hws
    refine ⟨b :: l', ?_, .cons hab hrel⟩
    rw [readItems, hb, hl']
    rfl

theorem readsBack_list {l : List α} (h : ∀ a ∈ l, ReadsBack dump read R a) :
    ReadsBack (fun l => .list (l.map dump)) (readList read) (List.Forall₂ R) l := by
  rintro v hv ⟨ws, rfl, hsame⟩
  exact readsBack_items h 0 ws hv hsame

theorem readEntries_of_forall {kvs : List (String × Value)}
    (h : ∀ kv ∈ kvs, ∃ b, read kv.2 = .ok b) :
    ∃ entries, readEntries read kvs = .ok entries ∧
      List.Forall₂ (fun kv entry => kv.1 = entry.1 ∧ read kv.2 = .ok entry.2) kvs entries := by
  induction kvs with
  | nil => exact ⟨[], rfl, .nil⟩
  | cons kv kvs ih =>
    rw [List.forall_mem_cons] at h
    obtain ⟨b, hb⟩ := h.1
    obtain ⟨entries, hentries, hrel⟩ := ih h.2
    refine ⟨(kv.1, b) :: entries, ?_, .cons ⟨rfl, hb⟩ hrel⟩
    rw [readEntries, hb, hentries]
    rfl

/-- The entries that are read are looked up as the values they are read from. -/
theorem rel_get_of_forall₂ {kvs : List (String × Value)} {entries : List (String × α)}
    (h : List.Forall₂ (fun kv entry => kv.1 = entry.1 ∧ read kv.2 = .ok entry.2) kvs entries)
    (k : String) :
    Option.Rel (fun v b => read v = .ok b) (Assoc.get k kvs) (Assoc.get k entries) := by
  induction h with
  | nil => exact .none
  | @cons kv entry kvs entries hhead htail ih =>
    obtain ⟨key, v⟩ := kv
    obtain ⟨key', b⟩ := entry
    obtain ⟨rfl, hb⟩ := hhead
    rw [Assoc.get, Assoc.get]
    split_ifs
    · exact .some hb
    · exact ih

theorem keys_of_forall₂ {kvs : List (String × Value)} {entries : List (String × α)}
    (h : List.Forall₂ (fun kv entry => kv.1 = entry.1 ∧ read kv.2 = .ok entry.2) kvs entries) :
    entries.map Prod.fst = kvs.map Prod.fst := by
  induction h with
  | nil => rfl
  | cons hhead _ ih => rw [List.map_cons, List.map_cons, ih, hhead.1]

theorem rel_of_map_left {β γ : Type} {f : α → β} {S : β → γ → Prop} {o : Option α} {p : Option γ}
    (h : Option.Rel S (o.map f) p) : Option.Rel (fun a c => S (f a) c) o p := by
  cases o with
  | none =>
    cases h
    exact .none
  | some a =>
    cases h with
    | some hs => exact .some hs

theorem rel_comp {β γ : Type} {S : α → β → Prop} {T : β → γ → Prop} {U : α → γ → Prop} {a : Option α}
    {b : Option β} {c : Option γ} (hab : Option.Rel S a b) (hbc : Option.Rel T b c)
    (h : ∀ x y z, a = some x → b = some y → c = some z → S x y → T y z → U x z) :
    Option.Rel U a c := by
  cases hab with
  | none =>
    cases hbc
    exact .none
  | some hs =>
    cases hbc with
    | some ht => exact .some (h _ _ _ rfl rfl rfl hs ht)

theorem readsBack_dict {d : Dict String α} (h : ∀ k a, d.get? k = some a → ReadsBack dump read R a) :
    ReadsBack (dumpDict dump) (readDict read) (SameDict R) d := by
  intro v hv hsame
  obtain ⟨kws, rfl⟩ : ∃ kws, v = .dict kws := by
    obtain ⟨kws, rfl, -⟩ := hsame
    exact ⟨kws, rfl⟩
  have hrel := (Json.same_dict_iff (d.mapValues dump).nodup_keys hv.1).mp hsame
  -- what stands under a key is what the dict holds there, dumped
  have hlookup : ∀ k, Option.Rel (fun a w => Json.Same (dump a) w) (d.get? k) (Assoc.get k kws) := by
    intro k
    have hk : Option.Rel Json.Same ((d.mapValues dump).get? k) (Assoc.get k kws) := hrel k
    rw [Dict.get?_mapValues] at hk
    exact rel_of_map_left hk
  have hdistinct := distinctKeysItems_iff.mp hv.2
  have hread : ∀ kw ∈ kws, ∃ b, read kw.2 = .ok b := by
    rintro ⟨k, w⟩ hkw
    have hk := hlookup k
    rw [Assoc.get_eq_some_of_mem hv.1 hkw] at hk
    cases hget : d.get? k with
    | none =>
      rw [hget] at hk
      cases hk
    | some a =>
      rw [hget] at hk
      cases hk with
      | some hsame =>
        obtain ⟨b, hb, -⟩ := h k a hget w (hdistinct _ hkw) hsame
        exact ⟨b, hb⟩
  obtain ⟨entries, hentries, hpairs⟩ := readEntries_of_forall hread
  have hkeys : entries.map Prod.fst = kws.map Prod.fst := keys_of_forall₂ hpairs
  refine ⟨Dict.ofList entries, ?_, fun k => ?_⟩
  · rw [readDict, hentries]
    rfl
  · have hget : (Dict.ofList entries).get? k = Assoc.get k entries := by
      rw [Dict.get?, Dict.items_ofList (hkeys ▸ hv.1)]
    rw [hget]
    refine rel_comp (hlookup k) (rel_get_of_forall₂ hpairs k) fun a w b hd hw _ hsame hb => ?_
    obtain ⟨b', hb', hab⟩ := h k a hd w (hdistinct _ (Assoc.mem_of_get_eq_some hw)) hsame
    obtain rfl := Except.ok.inj (hb.symm.trans hb')
    exact hab

/-! ### Fields -/

variable {fields kws : List (String × Value)}

/-- The fields of a dump stand under the same keys in whatever is the same JSON value. -/
theorem same_field (hfields : (fields.map Prod.fst).Nodup) (hkws : Json.DistinctKeys (.dict kws))
    (hsame : Json.Same (.dict fields) (.dict kws)) (key : String) :
    Option.Rel (fun v w => Json.DistinctKeys w ∧ Json.Same v w) (Assoc.get key fields)
      (Assoc.get key kws) := by
  have hrel := (Json.same_dict_iff hfields hkws.1).mp hsame key
  cases hget : Assoc.get key kws with
  | none =>
    rw [hget] at hrel
    cases hv : Assoc.get key fields with
    | none => exact .none
    | some v => rw [hv] at hrel; cases hrel
  | some w =>
    rw [hget] at hrel
    cases hv : Assoc.get key fields with
    | none => rw [hv] at hrel; cases hrel
    | some v =>
      rw [hv] at hrel
      cases hrel with
      | some hvw =>
        exact .some ⟨distinctKeysItems_iff.mp hkws.2 _ (Assoc.mem_of_get_eq_some hget), hvw⟩

/-- The dump has a field, which is read back. -/
theorem required_of_field {a : α} (hback : ReadsBack dump read R a) {key : String}
    (hrel : Option.Rel (fun v w => Json.DistinctKeys w ∧ Json.Same v w) (some (dump a))
      (Assoc.get key kws)) : ∃ b, required key read kws = .ok b ∧ R a b := by
  cases hget : Assoc.get key kws with
  | none => rw [hget] at hrel; cases hrel
  | some w =>
    rw [hget] at hrel
    cases hrel with
    | some h =>
      obtain ⟨b, hb, hab⟩ := hback w h.1 h.2
      refine ⟨b, ?_, hab⟩
      rw [required, hget]
      exact Validated.located_ok_iff.mpr hb

theorem optional_of_field {a : α} (hback : ReadsBack dump read R a) {key : String}
    (hrel : Option.Rel (fun v w => Json.DistinctKeys w ∧ Json.Same v w) (some (dump a))
      (Assoc.get key kws)) (dflt : α) : ∃ b, optional key dflt read kws = .ok b ∧ R a b := by
  obtain ⟨b, hb, hab⟩ := required_of_field hback hrel
  refine ⟨b, ?_, hab⟩
  rw [required] at hb
  rw [optional]
  split at hb
  · exact hb
  · cases hb

theorem aliased_of_field {a : α} (hback : ReadsBack dump read R a) {key : String}
    (hrel : Option.Rel (fun v w => Json.DistinctKeys w ∧ Json.Same v w) (some (dump a))
      (Assoc.get key kws)) (name : String) : ∃ b, aliased key name read kws = .ok b ∧ R a b := by
  obtain ⟨b, hb, hab⟩ := required_of_field hback hrel
  refine ⟨b, ?_, hab⟩
  rw [required] at hb
  rw [aliased]
  split at hb
  · exact hb
  · cases hb

/-- A field the dump leaves out has its default. -/
theorem optional_of_absent {key : String}
    (hrel : Option.Rel (fun v w => Json.DistinctKeys w ∧ Json.Same v w) none (Assoc.get key kws))
    (dflt : α) : optional key dflt read kws = .ok dflt := by
  rw [optional]
  cases hget : Assoc.get key kws with
  | none => rfl
  | some w => rw [hget] at hrel; cases hrel

end

/-! ## Models -/

theorem readsBack_str_option (o : Option String) :
    ReadsBack (dumpOption .str) (nullable readStr) Eq o := by
  intro v hv hsame
  obtain ⟨b, hb, hrel⟩ := readsBack_option (fun _ => Value.noConfusion)
    (fun a _ => readsBack_str a) v hv hsame
  refine ⟨b, hb, ?_⟩
  cases hrel with
  | none => rfl
  | some h => exact congrArg some h

theorem readsBack_anyDict (pd : Pydantic) {d : Dict String Value} (h : JsonValues d) :
    ReadsBack (dumpDict (dumpAny pd)) (readDict readAny) (SameDict Json.Same) d :=
  readsBack_dict fun k a ha => readsBack_any pd (h k a ha)

theorem readsBack_outputs (o : Option (List String)) :
    ReadsBack (dumpOption fun outputs => .list (outputs.map .str)) (nullable (readList readStr)) Eq
      o := by
  intro v hv hsame
  obtain ⟨b, hb, hrel⟩ := readsBack_option (fun _ => Value.noConfusion)
    (fun outputs _ => readsBack_list fun a _ => readsBack_str a) v hv hsame
  refine ⟨b, hb, ?_⟩
  cases hrel with
  | none => rfl
  | some h => exact congrArg some (List.forall₂_eq_eq_eq ▸ h)

theorem readsBack_step (pd : Pydantic) {s : WorkflowStep}
    (hs : JsonValues s.configOverride ∧ ∀ p, s.retryPolicy = some p → JsonValues p) :
    ReadsBack (WorkflowStep.modelDump pd) WorkflowStep.modelValidate SameStep s := by
  intro v hv hsame
  obtain ⟨kws, rfl⟩ : ∃ kws, v = .dict kws := by
    obtain ⟨kws, rfl, -⟩ := hsame
    exact ⟨kws, rfl⟩
  have hfield := same_field (by simp) hv hsame
  obtain ⟨id, hid, rid⟩ := required_of_field (readsBack_str s.id) (hfield "id")
  obtain ⟨type, htype, rtype⟩ := required_of_field (readsBack_nodeType s.type) (hfield "type")
  obtain ⟨implementation, himpl, rimpl⟩ :=
    required_of_field (readsBack_str s.implementation) (hfield "implementation")
  obtain ⟨configRef, href, rref⟩ :=
    optional_of_field (readsBack_str_option s.configRef) (hfield "config_ref") none
  obtain ⟨configOverride, hconfig, rconfig⟩ :=
    optional_of_field (readsBack_anyDict pd hs.1) (hfield "config_override") Dict.empty
  obtain ⟨inputs, hinputs, rinputs⟩ := optional_of_field
    (readsBack_option (fun _ => Value.noConfusion) fun d _ =>
      readsBack_dict fun k a _ => readsBack_str a) (hfield "inputs") none
  obtain ⟨outputs, houtputs, routputs⟩ :=
    optional_of_field (readsBack_outputs s.outputs) (hfield "outputs") none
  obtain ⟨condition, hcondition, rcondition⟩ :=
    optional_of_field (readsBack_str_option s.condition) (hfield "condition") none
  obtain ⟨retryPolicy, hretry, rretry⟩ := optional_of_field
    (readsBack_option (fun _ => Value.noConfusion) fun d hd => readsBack_anyDict pd (hs.2 d hd))
    (hfield "retry_policy") none
  refine ⟨⟨id, type, implementation, configRef, configOverride, inputs, outputs, condition,
    retryPolicy⟩, ?_, ⟨rid, rtype, rimpl, rref, rconfig, rinputs, routputs, rcondition, rretry⟩⟩
  rw [WorkflowStep.modelValidate, hid, htype, himpl, href, hconfig, hinputs, houtputs, hcondition,
    hretry]
  rfl

theorem readsBack_edge (pd : Pydantic) (e : WorkflowEdge) :
    ReadsBack WorkflowEdge.modelDump (WorkflowEdge.modelValidate pd) Eq e := by
  intro v hv hsame
  obtain ⟨kws, rfl⟩ : ∃ kws, v = .dict kws := by
    obtain ⟨kws, rfl, -⟩ := hsame
    exact ⟨kws, rfl⟩
  have hfield := same_field (by simp) hv hsame
  obtain ⟨_, hfrom, rfl⟩ := aliased_of_field (readsBack_str e.fromStep) (hfield "from") "from_step"
  obtain ⟨_, hto, rfl⟩ := aliased_of_field (readsBack_str e.toStep) (hfield "to") "to_step"
  obtain ⟨_, hcondition, rfl⟩ :=
    optional_of_field (readsBack_str_option e.condition) (hfield "condition") none
  obtain ⟨_, hpriority, rfl⟩ :=
    optional_of_field (readsBack_priority pd e.priority) (hfield "priority") 0
  refine ⟨e, ?_, rfl⟩
  rw [WorkflowEdge.modelValidate, hfrom, hto, hcondition, hpriority]
  rfl

namespace WorkflowDefinition

/-- The constructor lets no edge through that refers to an unknown step. -/
theorem edgesKnown_of_modelValidate {pd : Pydantic} {definition : Dict String Value}
    {d : WorkflowDefinition} (h : modelValidate pd definition = .ok d) : d.EdgesKnown := by
  obtain ⟨-, hnil⟩ | ⟨v, -, hread⟩ := optional_ok_iff.mp (readFrom_of_modelValidate h).edges
  · intro e he
    rw [hnil] at he
    cases he
  · obtain ⟨edges, -, hvalidate⟩ := bind_ok hread
    have hreferences := mapError_ok hvalidate
    obtain ⟨_, -, hpure⟩ := bind_ok hreferences
    obtain rfl := Except.ok.inj hpure
    exact (validateEdgeReferences_ok_iff d).mp hreferences

theorem readsBack_steps (pd : Pydantic) {d : WorkflowDefinition} (hd : FromJson d)
    (hne : d.steps ≠ []) :
    ReadsBack (fun steps => .list (steps.map (WorkflowStep.modelDump pd))) readSteps
      (List.Forall₂ SameStep) d.steps := by
  intro v hv hsame
  obtain ⟨steps, hsteps, hrel⟩ :=
    readsBack_list (fun step hstep => readsBack_step pd (hd step hstep)) v hv hsame
  refine ⟨steps, ?_, hrel⟩
  have hne' : steps ≠ [] := by
    rintro rfl
    exact hne (List.forall₂_nil_right_iff.mp hrel)
  rw [readSteps, hsteps]
  show validator (validateStepsNotEmpty steps) = _
  rw [validateStepsNotEmpty, if_neg hne']
  rfl

theorem stepIds_of_same {steps steps' : List WorkflowStep} (h : List.Forall₂ SameStep steps steps') :
    steps'.map WorkflowStep.id = steps.map WorkflowStep.id := by
  induction h with
  | nil => rfl
  | cons hhead _ ih => rw [List.map_cons, List.map_cons, ih, hhead.id]

theorem readsBack_edges (pd : Pydantic) {d : WorkflowDefinition} (hedges : d.EdgesKnown)
    {steps : List WorkflowStep} (hsteps : List.Forall₂ SameStep d.steps steps) :
    ReadsBack (fun edges => .list (edges.map WorkflowEdge.modelDump)) (readEdges pd (.ok steps)) Eq
      d.edges := by
  intro v hv hsame
  obtain ⟨edges, hread, hrel⟩ := readsBack_list (fun e _ => readsBack_edge pd e) v hv hsame
  obtain rfl : d.edges = edges := List.forall₂_eq_eq_eq ▸ hrel
  have hknown : validateEdgeReferences steps d.edges = .ok d.edges := by
    have hiff := validateEdgeReferences_ok_iff d
    rw [validateEdgeReferences, ← stepIds_of_same hsteps] at hiff
    exact hiff.mpr hedges
  refine ⟨d.edges, ?_, rfl⟩
  rw [readEdges, hread]
  show validator (validateEdgeReferences steps d.edges) = _
  rw [hknown]
  rfl

/-- Whatever is the same JSON value as the hashed dump is validated, into a definition of the
same content. -/
theorem readsBack_definition (pd : Pydantic) {d : WorkflowDefinition} (hd : FromJson d)
    (hedges : d.EdgesKnown) (hne : d.steps ≠ []) {fields : Dict String Value}
    (hfields : Json.DistinctKeys (.dict fields.items))
    (hsame : Json.Same (d.modelDump pd ["metadata", "version"]) (.dict fields.items)) :
    ∃ e, modelValidate pd fields = .ok e ∧ SameContent d e ∧ e.version = 1 ∧
      e.metadata = Dict.empty := by
  rw [modelDump_eq] at hsame
  have hfield := same_field (by simp) hfields hsame
  obtain ⟨id, hid, rid⟩ := required_of_field (readsBack_str d.id) (hfield "id")
  obtain ⟨name, hname, rname⟩ :=
    optional_of_field (readsBack_str_option d.name) (hfield "name") none
  obtain ⟨description, hdescription, rdescription⟩ :=
    optional_of_field (readsBack_str_option d.description) (hfield "description") none
  obtain ⟨inputSchema, hinput, rinput⟩ :=
    optional_of_field (readsBack_str_option d.inputSchema) (hfield "input_schema") none
  obtain ⟨outputSchema, houtput, routput⟩ :=
    optional_of_field (readsBack_str_option d.outputSchema) (hfield "output_schema") none
  obtain ⟨steps, hsteps, rsteps⟩ := optional_of_field (readsBack_steps pd hd hne) (hfield "steps") []
  obtain ⟨edges, hedges', redges⟩ :=
    optional_of_field (readsBack_edges pd hedges rsteps) (hfield "edges") []
  obtain ⟨gates, hgates, rgates⟩ := optional_of_field
    (readsBack_dict fun k x _ => readsBack_float pd x) (hfield "quality_gates") Dict.empty
  obtain ⟨tenantId, htenant, rtenant⟩ :=
    optional_of_field (readsBack_str_option d.tenantId) (hfield "tenant_id") none
  obtain ⟨createdBy, hcreated, rcreated⟩ :=
    optional_of_field (readsBack_str_option d.createdBy) (hfield "created_by") none
  have hversion : optional "version" ⟨1, le_rfl⟩ (readVersion pd) fields.items = .ok ⟨1, le_rfl⟩ :=
    optional_of_absent (hfield "version") _
  have hmetadata : optional "metadata" Dict.empty (readDict readAny) fields.items = .ok Dict.empty :=
    optional_of_absent (hfield "metadata") _
  refine ⟨make id ⟨1, le_rfl⟩ name description inputSchema outputSchema steps edges gates Dict.empty
    tenantId createdBy, ?_, ?_, rfl, rfl⟩
  · rw [modelValidate, hid, hversion, hname, hdescription, hinput, houtput, hsteps, hedges', hgates,
      hmetadata, htenant, hcreated]
    rfl
  · exact ⟨rid, rname, rdescription, rinput, routput, rsteps, redges, rgates, rtenant, rcreated⟩

/-- **The hashed text is a document of its definition.** It is validated back into a definition
of the same content exactly if there are steps: without any, the text lists none, and an empty
list of steps is refused where the default was not. -/
theorem modelValidate_canonicalString_iff {pd : Pydantic} {definition : Dict String Value}
    {d : WorkflowDefinition} (hjson : IsJson (.dict definition.items))
    (h : modelValidate pd definition = .ok d) :
    (∃ fields e, Json.loads (d.canonicalString pd) = some (.dict fields.items) ∧
      modelValidate pd fields = .ok e ∧ SameContent d e ∧ e.version = 1 ∧
      e.metadata = Dict.empty) ↔ d.steps ≠ [] := by
  have hd := fromJson_of_modelValidate hjson h
  obtain ⟨w, hloads, hsame, hcanonical⟩ := Json.loads_dumps (distinctKeys_modelDump pd hd)
  have hdict : ∃ kws, w = .dict kws := by
    obtain ⟨kws, rfl, -⟩ := hsame
    exact ⟨kws, rfl⟩
  obtain ⟨kws, rfl⟩ := hdict
  have hdistinct := hcanonical.distinctKeys
  constructor
  · rintro ⟨fields, e, hloads', hvalidate, -⟩ hnil
    obtain rfl := Value.dict.inj (Option.some.inj (hloads.symm.trans hloads'))
    rw [modelDump_eq, hnil] at hsame
    have hfield : Option.Rel _ (some (Value.list [])) (Assoc.get "steps" fields.items) :=
      same_field (by simp) hdistinct hsame "steps"
    obtain ⟨hget, -⟩ | ⟨v, hget, hread⟩ := optional_ok_iff.mp (modelValidate_steps hvalidate)
    · rw [hget] at hfield
      cases hfield
    · rw [hget] at hfield
      cases hfield with
      | some hv =>
        obtain ⟨ws, rfl, rfl⟩ := hv.2
        obtain ⟨hlist, hne⟩ := readSteps_ok hread
        exact hne (Except.ok.inj hlist).symm
  · intro hne
    let fields : Dict String Value := ⟨kws, hdistinct.1⟩
    have hfields : Json.DistinctKeys (.dict fields.items) := hdistinct
    obtain ⟨e, he⟩ :=
      readsBack_definition pd hd (edgesKnown_of_modelValidate h) hne hfields hsame
    exact ⟨fields, e, hloads, he⟩

open HashDemo in
theorem modelValidate_canonicalString_iff_byName :
    ∃ fields e,
      Json.loads ((definition 2 (by decide) (Dict.ofList [("owner", .str "alice")])
        overrides').canonicalString strictPydantic) = some (.dict fields.items) ∧
      modelValidate strictPydantic fields = .ok e ∧
      SameContent (definition 2 (by decide) (Dict.ofList [("owner", .str "alice")]) overrides') e ∧
      e.version = 1 ∧ e.metadata = Dict.empty := by
  have hjson : IsJson (.dict byName.items) := by
    simp [byName, stepDict, embedDict, IsJson, IsJsonItems, IsJsonList]
  exact (modelValidate_canonicalString_iff hjson rfl).mpr (List.cons_ne_nil _ _)

end WorkflowDefinition

end RagEval.Workflows
