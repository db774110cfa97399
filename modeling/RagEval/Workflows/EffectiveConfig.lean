import RagEval.Lib.NumOrder
import RagEval.Workflows.NodeSafety

/-!
# The configuration a node runs with

The validator sees the override of a step only and fills in what it lacks; a run merges it with
the defaults of the node. What the validator accepts satisfies, merged, the constraints of the
node as a whole.

## Main definitions

- `WorkflowNode.Constraints` — the constraints of a node on its whole configuration

## Main result

- `merged_satisfies` — accepted overrides give configurations that satisfy them
-/

namespace RagEval.Workflows
open RagEval.Lib WorkflowValidator

/-- The configuration has the setting, and its value the property. -/
def HasSetting (config : Dict String Value) (key : String) (P : Value → Prop) : Prop :=
  ∃ v, config.get? key = some v ∧ P v

/-- A finite number between the bounds. -/
def InRange (lo hi : ℚ) (v : Value) : Prop := ∃ q, v.toRat? = some q ∧ lo ≤ q ∧ q ≤ hi

/-- The constraints of a node on its whole configuration. -/
def WorkflowNode.Constraints (config : Dict String Value) : WorkflowNode → Prop
  | recursiveTextSplitter => HasSetting config "chunk_size" fun size =>
    InRange 100 10000 size ∧ HasSetting config "chunk_overlap" fun overlap =>
      ∃ s o, size.toRat? = some s ∧ overlap.toRat? = some o ∧ 0 ≤ o ∧ o < s
  | openaiEmbedding =>
    HasSetting config "model" (fun model => ∃ name ∈ OpenAIEmbeddingNode.validModels,
      model = .str name) ∧
    HasSetting config "dimensions" (InRange 256 3072)
  | vectorRetrieval => HasSetting config "top_k" (InRange 1 100)
  | crossEncoderReranker => HasSetting config "top_k" (InRange 1 100)
  | llmGeneration =>
    HasSetting config "temperature" (InRange 0 2) ∧
    HasSetting config "max_tokens" (InRange 1 32000)
  | ragasEval => HasSetting config "metrics" fun metrics => ∃ items, metrics.iter = .ok items ∧
    ∀ metric ∈ items, ∃ name ∈ RagasEvalNode.validMetrics, metric = .str name
  | _ => True

/-! ## What the checks establish -/

theorem inRange_of_outside {lo hi : Int} {v : Value} (h : outside lo hi v = .ok false) :
    InRange lo hi v := by
  obtain ⟨inside, hinside, h⟩ := bind_ok h
  obtain rfl : inside = true := by simpa using Except.ok.inj h
  obtain ⟨above, habove, hbelow⟩ := bind_ok hinside
  obtain ⟨x, hx⟩ := Option.isSome_iff_exists.mp (Value.isNumber_of_compareNum habove).2
  cases above with
  | false => cases hbelow
  | true =>
    have hle : (Num.ofInt lo).le x = true := by
      have habove : Value.le (.int lo) v = .ok true := habove
      rw [Value.le, Value.compareNum, hx] at habove
      exact Except.ok.inj habove
    have hge : x.le (Num.ofInt hi) = true := by
      have hbelow : Value.le v (.int hi) = .ok true := hbelow
      rw [Value.le, Value.compareNum, hx] at hbelow
      exact Except.ok.inj hbelow
    rw [InRange, Value.toRat?, hx]
    exact Num.exists_rat (Num.toRat?_ofInt lo) (Num.toRat?_ofInt hi) hle hge

/-- What is merged is the override's setting, or else the default, as it is for the checks. -/
theorem hasSetting_merged {defaultConfig config : Dict String Value} {key : String} {dflt : Value}
    {P : Value → Prop} (hdefault : defaultConfig.get? key = some dflt)
    (h : P (config.getD key dflt)) : HasSetting (mergedConfig defaultConfig config) key P := by
  refine ⟨config.getD key dflt, ?_, h⟩
  rw [mergedConfig, Dict.get?_update, hdefault, Dict.getD]
  cases config.get? key <;> rfl

/-- The value is no NaN. -/
def NotNaN (v : Value) : Prop := v.num? ≠ some .nan

theorem notNaN_int (i : Int) : NotNaN (.int i) := fun h => by cases h

/-- The values that the checks compare are no NaNs, which pass some comparisons of both kinds. -/
def WorkflowNode.NoNaNs (node : WorkflowNode) (config : Dict String Value) : Prop :=
  ∀ key ∈ node.comparedKeys, ∀ v, config.get? key = some v → NotNaN v

theorem notNaN_getD {config : Dict String Value} {key : String} {dflt : Value}
    (hdflt : NotNaN dflt) (h : ∀ v, config.get? key = some v → NotNaN v) :
    NotNaN (config.getD key dflt) := by
  rw [Dict.getD]
  cases hv : config.get? key with
  | none => exact hdflt
  | some v => exact h v hv

/-- Four comparisons that all fail leave finite numbers within the bounds. -/
theorem sizes_of_validateConfig {config : Dict String Value}
    (haccepted : RecursiveTextSplitterNode.validateConfig config = .ok [])
    (hsize : NotNaN (config.getD "chunk_size" (.int 1000)))
    (hoverlap : NotNaN (config.getD "chunk_overlap" (.int 200))) :
    InRange 100 10000 (config.getD "chunk_size" (.int 1000)) ∧
      ∃ s o, (config.getD "chunk_size" (.int 1000)).toRat? = some s ∧
        (config.getD "chunk_overlap" (.int 200)).toRat? = some o ∧ 0 ≤ o ∧ o < s := by
  obtain ⟨hsizeNumber, hoverlapNumber⟩ := RecursiveTextSplitterNode.isNumber_sizes haccepted
  rw [RecursiveTextSplitterNode.validateConfig_values, runChecks_nil_iff] at haccepted
  simp only [List.forall_mem_cons] at haccepted
  obtain ⟨hmin, hmax, hless, hnonneg, -⟩ := haccepted
  generalize config.getD "chunk_size" (.int 1000) = size at *
  generalize config.getD "chunk_overlap" (.int 200) = overlap at *
  obtain ⟨x, hx⟩ := Option.isSome_iff_exists.mp hsizeNumber
  obtain ⟨y, hy⟩ := Option.isSome_iff_exists.mp hoverlapNumber
  have hxnan : x ≠ .nan := fun h => hsize (by rw [hx, h])
  have hynan : y ≠ .nan := fun h => hoverlap (by rw [hy, h])
  rw [Value.lt, Value.compareNum, hx] at hmin
  rw [Value.gt, Value.compareNum, hx] at hmax
  rw [Value.ge, Value.compareNum, hx, hy] at hless
  rw [Value.lt, Value.compareNum, hy] at hnonneg
  have hlow : (Num.ofInt 100).le x = true :=
    Num.le_of_lt_eq_false hxnan (Num.ofInt_ne_nan 100) (Except.ok.inj hmin)
  have hhigh : x.le (Num.ofInt 10000) = true :=
    Num.le_of_lt_eq_false (Num.ofInt_ne_nan 10000) hxnan (Except.ok.inj hmax)
  have hbelow : x.le y = false := Except.ok.inj hless
  obtain ⟨s, hs, hslow, hshigh⟩ :=
    Num.exists_rat (Num.toRat?_ofInt 100) (Num.toRat?_ofInt 10000) hlow hhigh
  obtain ⟨o, ho, holow, -⟩ := Num.exists_rat (Num.toRat?_ofInt 0) hs
    (Num.le_of_lt_eq_false hynan (Num.ofInt_ne_nan 0) (Except.ok.inj hnonneg))
    (Num.le_of_le_eq_false hxnan hynan hbelow)
  have hlt : ¬s ≤ o := by
    rw [← Num.le_iff hs ho, hbelow]
    exact Bool.false_ne_true
  have hsize' : size.toRat? = some s := by
    rw [Value.toRat?, hx]
    exact hs
  have hoverlap' : overlap.toRat? = some o := by
    rw [Value.toRat?, hy]
    exact ho
  refine ⟨⟨s, hsize', ?_, ?_⟩, s, o, hsize', hoverlap', ?_, lt_of_not_ge hlt⟩
  · exact_mod_cast hslow
  · exact_mod_cast hshigh
  · exact_mod_cast holow

theorem topK_of_checkTopK {defaultConfig config : Dict String Value}
    (hdefault : defaultConfig.get? "top_k" = some (.int 5))
    (haccepted : checkTopK defaultConfig config = .ok []) :
    HasSetting (mergedConfig defaultConfig config) "top_k" (InRange 1 100) := by
  have hdflt : defaultConfig.getD "top_k" .none = .int 5 := by
    rw [Dict.getD, hdefault]
    rfl
  have hchecks := (runChecks_nil_iff _).mp haccepted
  rw [hdflt, List.forall_mem_singleton] at hchecks
  exact hasSetting_merged hdefault (by exact_mod_cast inRange_of_outside hchecks)

theorem mem_of_inStrings {v : Value} {names : List String} (h : v.inStrings names = true) :
    ∃ name ∈ names, v = .str name := by
  cases v with
  | str s => exact ⟨s, of_decide_eq_true h, rfl⟩
  | _ => cases h

/-- What passes the checks of a node satisfies, merged with its defaults, its constraints. -/
theorem WorkflowNode.constraints_of_validateConfig {py : Interpreter} {node : WorkflowNode}
    {config : Dict String Value} (haccepted : node.validateConfig py config = .ok [])
    (hnan : node.NoNaNs config) :
    node.Constraints (mergedConfig node.defaultConfig config) := by
  cases node with
  | recursiveTextSplitter =>
    simp only [NoNaNs, comparedKeys, List.forall_mem_cons] at hnan
    obtain ⟨hrange, hoverlap⟩ := sizes_of_validateConfig haccepted
      (notNaN_getD (notNaN_int 1000) hnan.1) (notNaN_getD (notNaN_int 200) hnan.2.1)
    exact hasSetting_merged rfl ⟨hrange, hasSetting_merged rfl hoverlap⟩
  | openaiEmbedding =>
    have hchecks := (runChecks_nil_iff _).mp haccepted
    simp only [List.forall_mem_cons] at hchecks
    obtain ⟨hmodel, hdimensions, -⟩ := hchecks
    refine ⟨hasSetting_merged rfl (mem_of_inStrings ?_), hasSetting_merged rfl ?_⟩
    · exact Bool.not_eq_eq_eq_not.mp (Except.ok.inj hmodel)
    · exact_mod_cast inRange_of_outside hdimensions
  | vectorRetrieval => exact topK_of_checkTopK rfl haccepted
  | crossEncoderReranker => exact topK_of_checkTopK rfl haccepted
  | llmGeneration =>
    have hchecks := (runChecks_nil_iff _).mp haccepted
    simp only [List.forall_mem_cons] at hchecks
    obtain ⟨htemperature, htokens, -⟩ := hchecks
    refine ⟨hasSetting_merged rfl ?_, hasSetting_merged rfl ?_⟩
    · exact_mod_cast inRange_of_outside htemperature
    · exact_mod_cast inRange_of_outside htokens
  | ragasEval =>
    obtain ⟨items, hitems, herrors⟩ := bind_ok haccepted
    refine hasSetting_merged rfl ⟨items, hitems, fun metric hmetric => mem_of_inStrings ?_⟩
    by_contra hinvalid
    have hmem : metric ∈ items.filter fun m => !m.inStrings RagasEvalNode.validMetrics :=
      List.mem_filter.mpr ⟨hmetric, by simpa using hinvalid⟩
    have hnonempty : (items.filter fun m => !m.inStrings RagasEvalNode.validMetrics).isEmpty =
        false := by
      rw [List.isEmpty_eq_false_iff]
      exact List.ne_nil_of_mem hmem
    rw [PyObject.notIn_values, ok_bind, hnonempty, if_neg Bool.false_ne_true] at herrors
    obtain ⟨shown, -, ⟨⟩⟩ := bind_ok herrors
  | _ => exact trivial

/-- The configuration that a step of an accepted workflow runs with satisfies the constraints of
its node as a whole. -/
theorem merged_satisfies (py : Interpreter) (workflow : WorkflowDefinition) (step : WorkflowStep)
    (node : WorkflowNode) (hvalid : validate py workflow = .ok []) (hstep : step ∈ workflow.steps)
    (hnode : nodeRegistry.get step.implementation = some node)
    (hnan : node.NoNaNs step.configOverride) :
    node.Constraints (mergedConfig node.defaultConfig step.configOverride) :=
  node.constraints_of_validateConfig (validateConfig_of_accepted hvalid hstep hnode) hnan

/-- The size overridden, the overlap of the defaults. -/
theorem merged_satisfies_split :
    WorkflowNode.recursiveTextSplitter.Constraints
      (mergedConfig RecursiveTextSplitterNode.defaultConfig
        (Dict.ofList [("chunk_size", .int 500)])) := by
  refine merged_satisfies sortedInterpreter splitThenEmbed
    ⟨"split", .chunking, "recursive_text_splitter", none, Dict.ofList [("chunk_size", .int 500)],
      none, none, none, none⟩ .recursiveTextSplitter (by rfl) List.mem_cons_self (by rfl) ?_
  simp only [WorkflowNode.NoNaNs, WorkflowNode.comparedKeys, List.forall_mem_cons]
  refine ⟨?_, ?_, by simp⟩
  · rintro v ⟨⟩
    exact fun h => by cases h
  · rintro v ⟨⟩

end RagEval.Workflows
