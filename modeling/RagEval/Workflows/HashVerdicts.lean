import RagEval.Lib.RelatedResults
import RagEval.Workflows.CanonicalHash
import RagEval.Workflows.Service
import RagEval.Workflows.ValidatorCorrect

/-!
# What equal hashes tell of validation

Definitions of one hash are validated, run and created alike.

## Main result

- `same_hash_same_verdict` — documents that `validate_workflow` reports under one hash get the
  same report, the wording of the errors apart, and fare alike in `create_workflow` and the dry run
-/

namespace RagEval.Workflows
open RagEval.Lib

/-! ## Same values -/

/-- What looks neither into lists nor into dicts, and takes every NaN for one, is the same of
the same values. -/
theorem eq_of_same {α : Type} (f : Value → α)
    (hfloat : ∀ {x y}, SameFloat x y → f (.float x) = f (.float y))
    (hlist : ∀ vs ws, f (.list vs) = f (.list ws))
    (hdict : ∀ kvs kws, f (.dict kvs) = f (.dict kws))
    {v w : Value} (h : Json.Same v w) : f v = f w := by
  cases v with
  | float x =>
    obtain ⟨y, rfl, hxy⟩ := h
    exact hfloat hxy
  | list vs =>
    obtain ⟨ws, rfl, -⟩ := h
    exact hlist vs ws
  | dict kvs =>
    obtain ⟨kws, rfl, -⟩ := h
    exact hdict kvs kws
  | none | bool b | int i | str s =>
    obtain rfl := h
    rfl

theorem num?_eq_of_same {v w : Value} (h : Json.Same v w) : v.num? = w.num? := by
  refine eq_of_same Value.num? ?_ (fun _ _ => rfl) (fun _ _ => rfl) h
  rintro x y (rfl | ⟨hx, hy⟩)
  · rfl
  · rw [Value.num?, Value.num?, hx, hy]

theorem typeName_eq_of_same {v w : Value} (h : Json.Same v w) : v.typeName = w.typeName :=
  eq_of_same Value.typeName (fun _ => rfl) (fun _ _ => rfl) (fun _ _ => rfl) h

theorem inStrings_eq_of_same {v w : Value} (h : Json.Same v w) (ss : List String) :
    v.inStrings ss = w.inStrings ss :=
  eq_of_same (·.inStrings ss) (fun _ => rfl) (fun _ _ => rfl) (fun _ _ => rfl) h

/-- A comparison sees of its operands their numbers and the names of their types. -/
theorem compareNum_eq_of_same (op : String) (f : Lib.Num → Lib.Num → Bool) {a a' b b' : Value}
    (ha : Json.Same a a') (hb : Json.Same b b') :
    Value.compareNum op f a b = Value.compareNum op f a' b' := by
  rw [Value.compareNum, Value.compareNum, num?_eq_of_same ha, num?_eq_of_same hb,
    typeName_eq_of_same ha, typeName_eq_of_same hb]

theorem outside_eq_of_same (lo hi : Int) {v w : Value} (h : Json.Same v w) :
    outside lo hi v = outside lo hi w := by
  have hlo : Value.le (.int lo) v = Value.le (.int lo) w := compareNum_eq_of_same _ _ rfl h
  have hhi : Value.le v (.int hi) = Value.le w (.int hi) := compareNum_eq_of_same _ _ h rfl
  have hinside : inside lo hi v = inside lo hi w := by
    show (Value.le (.int lo) v >>= fun r => if r then Value.le v (.int hi) else pure false) =
      Value.le (.int lo) w >>= fun r => if r then Value.le w (.int hi) else pure false
    rw [hlo, hhi]
  rw [outside, outside, hinside]

theorem SameDict.getD {α : Type} {R : α → α → Prop} {d e : Dict String α}
    (h : SameDict R d e) (k : String) (dflt : α) (hdflt : R dflt dflt) :
    R (d.getD k dflt) (e.getD k dflt) := by
  have hk := h k
  rw [Dict.getD, Dict.getD]
  cases hget : d.get? k <;> cases hget' : e.get? k <;> rw [hget, hget'] at hk <;> simp at hk ⊢
  · exact hdflt
  · exact hk

/-! ## Validating a configuration -/

theorem all_inStrings_iff_of_sameList (ss : List String) {vs ws : List Value}
    (h : Json.SameList vs ws) :
    (∀ v ∈ vs, v.inStrings ss = true) ↔ ∀ w ∈ ws, w.inStrings ss = true := by
  induction vs generalizing ws with
  | nil =>
    obtain rfl := h
    rfl
  | cons v vs ih =>
    obtain ⟨w, ws, rfl, hvw, hvs⟩ := h
    rw [List.forall_mem_cons, List.forall_mem_cons, ih hvs, inStrings_eq_of_same hvw]

/-- Iterating over the same values meets strings out of a list over both or over neither. -/
theorem relatedResults_iter {v w : Value} (hv : Json.DistinctKeys v) (h : Json.Same v w) :
    RelatedResults (fun ms ns => ∀ ss : List String,
      (∀ m ∈ ms, m.inStrings ss = true) ↔ ∀ n ∈ ns, n.inStrings ss = true) v.iter w.iter := by
  cases v with
  | list vs =>
    obtain ⟨ws, rfl, hvs⟩ := h
    exact .ok fun ss => all_inStrings_iff_of_sameList ss hvs
  | dict kvs =>
    obtain ⟨kws, rfl, hlength, hitems⟩ := h
    have hperm := Json.perm_keys_of_partners hv.1 hlength (Json.sameItems_iff_forall.mp hitems)
    refine .ok fun ss => ?_
    have hkeys (items : List (String × Value)) :
        (∀ m ∈ items.map fun kv => Value.str kv.1, m.inStrings ss = true) ↔
          ∀ k ∈ items.map Prod.fst, k ∈ ss := by
      simp only [List.forall_mem_map, Value.inStrings, decide_eq_true_eq]
    rw [hkeys, hkeys]
    exact forall_congr' fun k => by rw [hperm.mem_iff]
  | float x =>
    obtain ⟨y, rfl, -⟩ := h
    rintro _ _ ⟨⟩
  | none | bool b | int i | str s =>
    obtain rfl := h
    exact .of_eq (fun _ _ => Iff.rfl) rfl

theorem SameDict.items_eq_nil_iff {α : Type} {R : α → α → Prop} {d e : Dict String α}
    (h : SameDict R d e) : d.items = [] ↔ e.items = [] := by
  have hnil (c : Dict String α) : c.items = [] ↔ ∀ k, c.get? k = none := by
    simp only [Dict.get?_eq_none_iff, ← List.eq_nil_iff_forall_not_mem]
    exact List.map_eq_nil_iff.symm
  rw [hnil, hnil]
  refine forall_congr' fun k => ?_
  have hk := h k
  cases hget : d.get? k <;> cases hget' : e.get? k <;> rw [hget, hget'] at hk <;> simp at hk ⊢

theorem JsonValues.distinctKeys_getD {d : Dict String Value} (hd : JsonValues d) (k : String)
    (dflt : Value) (hdflt : Json.DistinctKeys dflt) : Json.DistinctKeys (d.getD k dflt) := by
  rw [Dict.getD]
  cases hget : d.get? k with
  | none => exact hdflt
  | some v => exact (hd k v hget).distinctKeys

/-- As many errors. -/
def AsMany (errors errors' : List String) : Prop := errors.length = errors'.length

theorem checkTopK_eq_of_same {dflts c c' : Dict String Value}
    (hdflt : Json.Same (dflts.getD "top_k" .none) (dflts.getD "top_k" .none))
    (h : SameDict Json.Same c c') : checkTopK dflts c = checkTopK dflts c' := by
  have houtside := outside_eq_of_same 1 100 (h.getD "top_k" _ hdflt)
  exact congrArg (fun check => runChecks [(check, _)]) houtside

theorem RecursiveTextSplitterNode.validateConfig_eq_of_same {c c' : Dict String Value}
    (h : SameDict Json.Same c c') : validateConfig c = validateConfig c' := by
  have hsize := h.getD "chunk_size" (.int 1000) rfl
  have hoverlap := h.getD "chunk_overlap" (.int 200) rfl
  have hint (i : Int) : Json.Same (.int i) (.int i) := rfl
  rw [validateConfig_values, validateConfig_values, Value.lt, Value.gt, Value.ge, Value.lt,
    compareNum_eq_of_same "<" _ hsize (hint 100), compareNum_eq_of_same ">" _ hsize (hint 10000),
    compareNum_eq_of_same ">=" _ hoverlap hsize, compareNum_eq_of_same "<" _ hoverlap (hint 0)]
  rfl

theorem OpenAIEmbeddingNode.validateConfig_eq_of_same {c c' : Dict String Value}
    (h : SameDict Json.Same c c') : validateConfig c = validateConfig c' := by
  have hmodel := h.getD "model" (defaultConfig.getD "model" .none) rfl
  have hdimensions := h.getD "dimensions" (.int 1536) rfl
  have hunknown (v : Value) : unknownModel v = .ok (!v.inStrings validModels) := rfl
  simp only [validateConfig, PyObject.ofValue, hunknown, inStrings_eq_of_same hmodel,
    outside_eq_of_same _ _ hdimensions]

theorem LLMGenerationNode.validateConfig_eq_of_same {c c' : Dict String Value}
    (h : SameDict Json.Same c c') : validateConfig c = validateConfig c' := by
  have htemp := h.getD "temperature" (defaultConfig.getD "temperature" .none)
    ⟨_, rfl, .inl rfl⟩
  have hmaxTokens := h.getD "max_tokens" (defaultConfig.getD "max_tokens" .none) rfl
  simp only [validateConfig, PyObject.ofValue, outside_eq_of_same _ _ htemp,
    outside_eq_of_same _ _ hmaxTokens]

/-- The text of the error lists the invalid metrics as they are, so only its being there is
the same. -/
theorem RagasEvalNode.relatedResults_validateConfig (py : Interpreter) {c c' : Dict String Value}
    (hc : JsonValues c) (h : SameDict Json.Same c c') :
    RelatedResults AsMany (validateConfig py c) (validateConfig py c') := by
  have hmetrics := h.getD "metrics" (defaultConfig.getD "metrics" .none)
    ⟨_, rfl, _, _, rfl, rfl, _, _, rfl, rfl, rfl⟩
  have hdistinct := hc.distinctKeys_getD "metrics" (defaultConfig.getD "metrics" .none)
    ⟨trivial, trivial, trivial⟩
  refine (relatedResults_iter hdistinct hmetrics).bind fun {ms ns} hms => ?_
  have hinvalid (ms : List Value) :
      (ms.filter fun m => !m.inStrings validMetrics).isEmpty = true ↔
        ∀ m ∈ ms, m.inStrings validMetrics = true := by
    simp
  have hempty := (hinvalid ms).trans ((hms validMetrics).trans (hinvalid ns).symm)
  rw [PyObject.notIn_values, PyObject.notIn_values, ok_bind, ok_bind]
  by_cases hms : (ms.filter fun m => !m.inStrings validMetrics).isEmpty = true
  · rw [if_pos hms, if_pos (hempty.mp hms)]
    exact .ok rfl
  · rw [if_neg hms, if_neg fun hns => hms (hempty.mpr hns)]
    intro errors errors' herrors herrors'
    obtain ⟨shown, -, ⟨⟩⟩ := bind_ok herrors
    obtain ⟨shown', -, ⟨⟩⟩ := bind_ok herrors'
    rfl

/-- A node whose checks return finds as many errors in the same configurations. -/
theorem WorkflowNode.relatedResults_validateConfig (py : Interpreter) (node : WorkflowNode)
    {c c' : Dict String Value} (hc : JsonValues c) (h : SameDict Json.Same c c') :
    RelatedResults AsMany (node.validateConfig py c) (node.validateConfig py c') := by
  have hrefl : ∀ errors, AsMany errors errors := fun _ => rfl
  cases node with
  | recursiveTextSplitter =>
    exact .of_eq hrefl (RecursiveTextSplitterNode.validateConfig_eq_of_same h)
  | openaiEmbedding => exact .of_eq hrefl (OpenAIEmbeddingNode.validateConfig_eq_of_same h)
  | vectorRetrieval | crossEncoderReranker => exact .of_eq hrefl (checkTopK_eq_of_same rfl h)
  | llmGeneration => exact .of_eq hrefl (LLMGenerationNode.validateConfig_eq_of_same h)
  | ragasEval => exact RagasEvalNode.relatedResults_validateConfig py hc h
  | markdownHeaderSplitter | ollamaEmbedding | hybridRetrieval | inputGuardrail | outputGuardrail =>
    exact .ok rfl

/-! ## Validating a definition -/

namespace WorkflowValidator

theorem relatedResults_validateStep (py : Interpreter) {s t : WorkflowStep}
    (hs : JsonValues s.configOverride) (h : SameStep s t) {seen : Finset String}
    {errors errors' : List String} (herrors : AsMany errors errors') :
    RelatedResults (fun a b => a.1 = b.1 ∧ AsMany a.2 b.2) (validateStep py (seen, errors) s)
      (validateStep py (seen, errors') t) := by
  unfold AsMany at herrors
  cases hnode : nodeRegistry.get s.implementation with
  | none =>
    simp only [validateStep, ← h.id, ← h.implementation, hnode]
    exact .ok ⟨rfl, by simp [AsMany, herrors]⟩
  | some node =>
    by_cases hempty : s.configOverride.items = []
    · have hempty' := h.configOverride.items_eq_nil_iff.mp hempty
      simp only [validateStep, ← h.id, ← h.implementation, hnode, if_pos hempty, if_pos hempty']
      exact .ok ⟨rfl, by simp [AsMany, herrors]⟩
    · have hempty' := mt h.configOverride.items_eq_nil_iff.mpr hempty
      simp only [validateStep, ← h.id, ← h.implementation, hnode, if_neg hempty, if_neg hempty']
      refine (node.relatedResults_validateConfig py hs h.configOverride).bind fun {es es'} hes => ?_
      unfold AsMany at hes
      exact .ok ⟨rfl, by simp [AsMany, herrors, hes]⟩

theorem relatedResults_validateSteps (py : Interpreter) {d e : WorkflowDefinition} (hd : FromJson d)
    (h : SameContent d e) : RelatedResults AsMany (validateSteps py d) (validateSteps py e) := by
  have hsteps := (List.forall₂_and_left _ _).mpr ⟨hd, h.steps⟩
  have hloop := RelatedResults.foldlM
    (R := fun a b : Finset String × List String => a.1 = b.1 ∧ AsMany a.2 b.2)
    (f := validateStep py) (g := validateStep py) (fun {a b s t} hab hst => ?_) hsteps
    (a := (∅, [])) (b := (∅, [])) ⟨rfl, rfl⟩
  · exact hloop.bind fun {a b} hab => .ok hab.2
  · obtain ⟨seen, errors⟩ := a
    obtain ⟨seen', errors'⟩ := b
    obtain ⟨rfl, herrors⟩ := hab
    exact relatedResults_validateStep py hst.1.1 hst.2 herrors

end WorkflowValidator

theorem SameContent.stepIds {d e : WorkflowDefinition} (h : SameContent d e) :
    d.stepIds = e.stepIds := by
  have hids : List.Forall₂ Eq (d.steps.map WorkflowStep.id) (e.steps.map WorkflowStep.id) := by
    rw [List.forall₂_map_left_iff, List.forall₂_map_right_iff]
    exact h.steps.imp fun _ _ hst => hst.id
  rwa [List.forall₂_eq_eq_eq] at hids

theorem SameContent.getStepOrder {d e : WorkflowDefinition} (h : SameContent d e) :
    d.getStepOrder = e.getStepOrder := by
  rw [WorkflowDefinition.getStepOrder, WorkflowDefinition.getStepOrder, h.stepIds, h.edges,
    h.steps.length_eq]

namespace WorkflowValidator

theorem getReachableSteps_eq_of_same {d e : WorkflowDefinition} (h : SameContent d e) :
    getReachableSteps d = getReachableSteps e := by
  have hids := h.stepIds
  rw [getReachableSteps, getReachableSteps, hids, h.edges]
  cases hd : d.steps with
  | nil =>
    have he : e.steps = [] := by simpa [hd] using h.steps
    rw [he]
  | cons s ss =>
    have hsteps := h.steps
    rw [hd] at hsteps
    obtain ⟨t, ts, hst, -, he⟩ := List.forall₂_cons_left_iff.mp hsteps
    rw [he]
    simp only [hst.id]

theorem validateConnectivity_eq_of_same (py : Interpreter) {d e : WorkflowDefinition}
    (h : SameContent d e) : validateConnectivity py d = validateConnectivity py e := by
  have hnil : d.steps = [] ↔ e.steps = [] := by
    rw [← List.length_eq_zero_iff, h.steps.length_eq, List.length_eq_zero_iff]
  rw [validateConnectivity, validateConnectivity, unreachableErrors, unreachableErrors, cycleErrors,
    cycleErrors, getReachableSteps_eq_of_same h, h.stepIds, h.edges, h.getStepOrder]
  simp only [hnil]

/-- The same definitions, where they can be validated, have as many errors. -/
theorem relatedResults_validate (py : Interpreter) {d e : WorkflowDefinition} (hd : FromJson d)
    (h : SameContent d e) : RelatedResults AsMany (validate py d) (validate py e) := by
  have hedges : validateEdges d = validateEdges e := by
    rw [validateEdges, validateEdges, h.edges, h.stepIds]
  rw [validate, validate, validateConnectivity_eq_of_same py h, hedges]
  refine (relatedResults_validateSteps py hd h).bind fun {steps steps'} hsteps => ?_
  refine (RelatedResults.of_eq (fun errors => Eq.refl errors) rfl).bind ?_
  rintro connectivity _ rfl
  exact .ok (by simpa [AsMany] using hsteps)

end WorkflowValidator

/-! ## The service -/

namespace WorkflowService

variable {py : Interpreter} {pd : Pydantic} {sha256 : String → String}
  {definition : Dict String Value} {workflowDef : WorkflowDefinition} {errors : List String}
  {hash : String}

/-- What a report with a hash is about. -/
structure Reported (py : Interpreter) (pd : Pydantic) (sha256 : String → String)
    (definition : Dict String Value) (workflowDef : WorkflowDefinition) (errors : List String)
    (hash : String) : Prop where
  modelValidate : WorkflowDefinition.modelValidate pd definition = .ok workflowDef
  validate : WorkflowValidator.validate py workflowDef = .ok errors
  computeHash : workflowDef.computeHash pd sha256 = .ok hash

/-- A report without a hash is the one of an exception. -/
theorem reported_of_validateWorkflow {r : ValidationResult}
    (h : validateWorkflow py pd sha256 definition = .ok r) (hhash : r.definitionHash = some hash) :
    ∃ workflowDef errors, Reported py pd sha256 definition workflowDef errors hash ∧
      r = ⟨errors.length = 0, errors, workflowDef.steps.length, workflowDef.edges.length,
        some hash⟩ := by
  rw [validateWorkflow] at h
  cases htry : tryValidate py pd sha256 definition with
  | error e =>
    rw [htry] at h
    obtain rfl := Except.ok.inj h
    cases hhash
  | ok r' =>
    rw [htry] at h
    obtain rfl := Except.ok.inj h
    obtain ⟨workflowDef, hmodel, htry⟩ := bind_ok htry
    obtain ⟨errors, hvalidate, htry⟩ := bind_ok htry
    obtain ⟨hash', hcompute, htry⟩ := bind_ok htry
    obtain rfl := Except.ok.inj htry
    obtain rfl := Option.some.inj hhash
    exact ⟨workflowDef, errors,
      ⟨mapError_ok hmodel, mapError_ok hvalidate, mapError_ok hcompute⟩, rfl⟩

theorem Reported.createWorkflow_ok_iff
    (h : Reported py pd sha256 definition workflowDef errors hash) {id : UUID} {tenantId : String}
    {createdBy : Option String} {v : WorkflowVersion} :
    createWorkflow py pd sha256 id definition tenantId createdBy = .ok v ↔ errors = [] ∧
      v = { id, workflowId := nilUuid, version := 1, definition := workflowDef,
            definitionHash := hash, createdBy, status := .draft } := by
  rw [WorkflowService.createWorkflow_ok_iff]
  constructor
  · rintro ⟨_, _, ⟨hmodel, hvalidate, hhash⟩, rfl⟩
    obtain rfl := Except.ok.inj (h.modelValidate.symm.trans hmodel)
    obtain rfl := Except.ok.inj (h.computeHash.symm.trans hhash)
    exact ⟨Except.ok.inj (h.validate.symm.trans hvalidate), rfl⟩
  · rintro ⟨rfl, rfl⟩
    exact ⟨workflowDef, hash, ⟨h.modelValidate, h.validate, h.computeHash⟩, rfl⟩

/-- Two reports say the same, the wording of the errors apart. -/
structure SameReport (r r' : ValidationResult) : Prop where
  valid : r.valid = r'.valid
  errors : r.errors.length = r'.errors.length
  stepCount : r.stepCount = r'.stepCount
  edgeCount : r.edgeCount = r'.edgeCount

/-- The dry run shows of the report no more than the errors and the number of steps. -/
theorem SameReport.dryRun {r r' : ValidationResult}
    {definition' testInput testInput' : Dict String Value}
    (h : SameReport r r') (hr : validateWorkflow py pd sha256 definition = .ok r)
    (hr' : validateWorkflow py pd sha256 definition' = .ok r') {dry dry' : DryRunResult}
    (hdry : getWorkflowDryRunResult py pd sha256 definition testInput = .ok dry)
    (hdry' : getWorkflowDryRunResult py pd sha256 definition' testInput' = .ok dry') :
    dry.success = dry'.success ∧
      dry.validationErrors.length = dry'.validationErrors.length ∧
      dry.estimatedSteps = dry'.estimatedSteps ∧ dry.mockOutput = dry'.mockOutput := by
  rw [getWorkflowDryRunResult, hr, ok_bind] at hdry
  rw [getWorkflowDryRunResult, hr', ok_bind, ← h.valid] at hdry'
  cases hvalid : r.valid with
  | true =>
    rw [hvalid] at hdry hdry'
    obtain rfl := Except.ok.inj hdry
    obtain rfl := Except.ok.inj hdry'
    exact ⟨rfl, rfl, congrArg some h.stepCount, rfl⟩
  | false =>
    rw [hvalid] at hdry hdry'
    obtain rfl := Except.ok.inj hdry
    obtain rfl := Except.ok.inj hdry'
    exact ⟨rfl, h.errors, rfl, rfl⟩

/-- Two JSON documents that `validate_workflow` reports under one hash, their canonical strings
not colliding, get the same report, the wording of the errors apart. `create_workflow` creates
a version of the one exactly when it does of the other, under that hash and with the same step
order, and their dry runs end alike. -/
theorem same_hash_same_verdict (a b : Dict String Value) (ha : IsJson (.dict a.items))
    (hb : IsJson (.dict b.items)) {r r' : ValidationResult}
    (hr : validateWorkflow py pd sha256 a = .ok r) (hr' : validateWorkflow py pd sha256 b = .ok r')
    (hhash : r.definitionHash = some hash) (hhash' : r'.definitionHash = some hash)
    (hcollision : ∀ d e, WorkflowDefinition.modelValidate pd a = .ok d →
      WorkflowDefinition.modelValidate pd b = .ok e →
      WorkflowDefinition.truncated sha256 (d.canonicalString pd) =
        WorkflowDefinition.truncated sha256 (e.canonicalString pd) →
      d.canonicalString pd = e.canonicalString pd) :
    SameReport r r' ∧
      (∀ id id' tenantId tenantId' createdBy createdBy',
        ((∃ v, createWorkflow py pd sha256 id a tenantId createdBy = .ok v) ↔
          ∃ v, createWorkflow py pd sha256 id' b tenantId' createdBy' = .ok v) ∧
        ∀ v v', createWorkflow py pd sha256 id a tenantId createdBy = .ok v →
          createWorkflow py pd sha256 id' b tenantId' createdBy' = .ok v' →
          v.definitionHash = hash ∧ v'.definitionHash = hash ∧
            v.definition.getStepOrder = v'.definition.getStepOrder) ∧
      ∀ testInput testInput' dry dry',
        getWorkflowDryRunResult py pd sha256 a testInput = .ok dry →
        getWorkflowDryRunResult py pd sha256 b testInput' = .ok dry' →
        dry.success = dry'.success ∧
          dry.validationErrors.length = dry'.validationErrors.length ∧
          dry.estimatedSteps = dry'.estimatedSteps ∧ dry.mockOutput = dry'.mockOutput := by
  obtain ⟨d, errors, hd, hreport⟩ := reported_of_validateWorkflow hr hhash
  obtain ⟨e, errors', he, hreport'⟩ := reported_of_validateWorkflow hr' hhash'
  have hfrom := WorkflowDefinition.fromJson_of_modelValidate ha hd.modelValidate
  have hfrom' := WorkflowDefinition.fromJson_of_modelValidate hb he.modelValidate
  have hcanonical := hcollision d e hd.modelValidate he.modelValidate
    ((WorkflowDefinition.computeHash_ok hd.computeHash).symm.trans
      (WorkflowDefinition.computeHash_ok he.computeHash))
  have hsame : SameContent d e := by
    rwa [WorkflowDefinition.canonicalString, WorkflowDefinition.canonicalString,
      Json.dumps_eq_iff (distinctKeys_modelDump pd hfrom) (distinctKeys_modelDump pd hfrom'),
      same_modelDump_iff pd hfrom hfrom'] at hcanonical
  have herrors : errors.length = errors'.length :=
    WorkflowValidator.relatedResults_validate py hfrom hsame _ _ hd.validate he.validate
  have hnil : errors = [] ↔ errors' = [] := by
    rw [← List.length_eq_zero_iff, herrors, List.length_eq_zero_iff]
  have hsameReport : SameReport r r' := by
    rw [hreport, hreport']
    exact ⟨by rw [herrors], herrors, hsame.steps.length_eq, by rw [hsame.edges]⟩
  refine ⟨hsameReport, fun id id' tenantId tenantId' createdBy createdBy' => ⟨?_, ?_⟩,
    fun testInput testInput' dry dry' => hsameReport.dryRun hr hr'⟩
  · simp only [hd.createWorkflow_ok_iff, he.createWorkflow_ok_iff, exists_and_left, exists_eq,
      and_true, hnil]
  · intro v v' hv hv'
    obtain ⟨-, rfl⟩ := hd.createWorkflow_ok_iff.mp hv
    obtain ⟨-, rfl⟩ := he.createWorkflow_ok_iff.mp hv'
    exact ⟨rfl, rfl, hsame.getStepOrder⟩

open HashDemo WorkflowValidator in
/-- The overrides in one order and in the other. -/
theorem same_hash_same_verdict_reordered :
    ∃ v, createWorkflow sortedInterpreter strictPydantic HashDemo.sha256 nilUuid byName "acme"
      none = .ok v := by
  have halias : IsJson (.dict byAlias.items) := by
    simp [byAlias, stepDict, embedDict, IsJson, IsJsonItems, IsJsonList]
  have hname : IsJson (.dict byName.items) := by
    simp [byName, stepDict, embedDict, IsJson, IsJsonItems, IsJsonList]
  let report : ValidationResult := ⟨true, [], 2, 1, some "f49ac0eb5df6ac33c2a51b4b9997a9c1"⟩
  have hreport : validateWorkflow sortedInterpreter strictPydantic HashDemo.sha256 byAlias =
    .ok report := rfl
  have hreport' : validateWorkflow sortedInterpreter strictPydantic HashDemo.sha256 byName =
    .ok report := rfl
  have hcreate := (same_hash_same_verdict byAlias byName halias hname hreport hreport' rfl rfl
    ?_).2.1 nilUuid nilUuid "acme" "acme" none none
  · exact hcreate.1.mp ⟨_, rfl⟩
  · intro d e hd he _
    obtain rfl := Except.ok.inj hd
    obtain rfl := Except.ok.inj he
    rfl

end WorkflowService

end RagEval.Workflows
