import RagEval.Lib.Outcome
import RagEval.Workflows.NodeRuns

/-!
# When the nodes return

For each node the condition on its input and its configuration under which its run returns or
raises the declared exception: the checks of a configuration do not cover all that a run does
with it.
-/

namespace RagEval.Workflows
open RagEval.Lib RagEval.Lib.Outcome

/-! ## Operators -/

theorem succeeds_index_iff (v : Value) : Succeeds v.index ↔ v.index?.isSome = true := by
  rw [Value.index]
  cases v.index? <;> simp

theorem succeeds_repeated_iff (x v : Value) :
    Succeeds (x.repeated v) ↔ v.index?.isSome = true := by
  rw [Value.repeated]
  cases v.index? <;> simp

theorem succeeds_sliceStop_iff (len : Nat) {v : Value} (hv : v.isNumber = true) :
    Succeeds (v.sliceStop len) ↔ v.index?.isSome = true := by
  cases v with
  | int i => exact iff_of_true ⟨_, rfl⟩ rfl
  | bool b => exact iff_of_true ⟨_, rfl⟩ rfl
  | float x => exact iff_of_false (not_succeeds_error _) Bool.false_ne_true
  | _ => cases hv

/-- `min(v, n)` is an integer: `v` is, or `n` is less. -/
def LimitUsable (v : Value) (n : Nat) : Prop :=
  v.index?.isSome = true ∨ Value.lt (.int n) v = .ok true

theorem isNumber_of_index {v : Value} (h : v.index?.isSome = true) : v.isNumber = true := by
  cases v with
  | int i => rfl
  | bool b => rfl
  | _ => cases h

/-- What `min(v, n)` is for a number. -/
theorem exists_limit {v : Value} (hv : v.isNumber = true) (n : Nat) :
    ∃ limit, v.minInt n = .ok limit ∧ limit.isNumber = true ∧
      (limit.index?.isSome = true ↔ LimitUsable v n) := by
  obtain ⟨less, hless⟩ : ∃ less, Value.lt (.int n) v = .ok less :=
    Value.compareNum_ok "<" Num.lt rfl hv
  rw [Value.minInt, LimitUsable, hless]
  cases less with
  | true => exact ⟨.int n, rfl, rfl, by simp [Value.index?]⟩
  | false => exact ⟨v, rfl, hv, by simp⟩

/-- A use of `min(v, n)` as an integer. -/
theorem succeeds_minInt_index_iff (v : Value) (n : Nat) :
    Succeeds (v.minInt n >>= Value.index) ↔ LimitUsable v n := by
  by_cases hv : v.isNumber = true
  · obtain ⟨limit, hlimit, -, husable⟩ := exists_limit hv n
    rw [hlimit, ok_bind, succeeds_index_iff, husable]
  · refine iff_of_false (fun h => hv ?_) fun h => hv ?_
    · obtain ⟨limit, hlimit, -⟩ := (succeeds_bind _ _).mp h
      obtain ⟨less, hless, -⟩ := bind_ok hlimit
      exact (Value.isNumber_of_compareNum hless).2
    · rcases h with h | h
      · exact isNumber_of_index h
      · exact (Value.isNumber_of_compareNum h).2

/-! ## Declared exceptions -/

/-- The exception the protocol declares. -/
def NodeError.Declared : NodeError → Prop
  | .nodeExecution .. => True
  | _ => False

variable {α β : Type}

/-- Exceptions of the interpreter are not declared. -/
theorem within_liftM_iff (x : Except PyError α) :
    Within NodeError.Declared (liftM x : Except NodeError α) ↔ Succeeds x := by
  cases x with
  | ok a => exact ⟨fun _ => succeeds_ok a, fun _ => within_ok _ a⟩
  | error e => exact ⟨fun h => (h _ rfl).elim, fun h => (not_succeeds_error e h).elim⟩

theorem within_liftM_bind (x : Except PyError α) (f : α → Except NodeError β) :
    Within NodeError.Declared ((liftM x : Except NodeError α) >>= f) ↔
      ∃ a, x = .ok a ∧ Within NodeError.Declared (f a) := by
  cases x with
  | ok a =>
    show Within NodeError.Declared (f a) ↔ _
    simp
  | error e =>
    refine ⟨fun h => (h _ rfl).elim, ?_⟩
    rintro ⟨a, ha, -⟩
    cases ha

/-! ## Well-typed inputs -/

def IsText (v : Value) : Prop := ∃ s, v = .str s

/-- A text or a list of texts; `None` stands for a missing one. -/
def IsTexts (v : Value) : Prop := v = .none ∨ IsText v ∨ ∃ xs, v = .list xs

/-- A list of dictionaries. -/
def IsDocuments (v : Value) : Prop :=
  v = .none ∨ ∃ docs, v = .list docs ∧ ∀ doc ∈ docs, ∃ kvs, doc = .dict kvs

/-- A list of dictionaries whose scores are numbers. -/
def IsScoredDocuments (v : Value) : Prop :=
  v = .none ∨ ∃ docs, v = .list docs ∧ ∀ doc ∈ docs, ∃ kvs, doc = .dict kvs ∧
    ∀ score, Assoc.get "score" kvs = some score → score.isNumber = true

/-- The fields of the input whose types a node relies on. -/
def WorkflowNode.inputFields : WorkflowNode → List (String × (Value → Prop))
  | recursiveTextSplitter => [("text", IsText)]
  | markdownHeaderSplitter => [("text", IsText)]
  | openaiEmbedding => [("texts", IsTexts), ("chunks", IsTexts)]
  | ollamaEmbedding => [("texts", IsTexts), ("chunks", IsTexts)]
  | vectorRetrieval => []
  | hybridRetrieval => [("query", IsText)]
  | crossEncoderReranker => [("results", IsScoredDocuments), ("documents", IsScoredDocuments)]
  | llmGeneration =>
    [("query", IsText), ("question", IsText), ("results", IsDocuments), ("context", IsDocuments)]
  | ragasEval => [("question", IsText), ("query", IsText)]
  | inputGuardrail => [("text", IsText)]
  | outputGuardrail => [("answer", IsText), ("text", IsText)]

/-- The fields are of the types the node expects. -/
def WorkflowNode.InputTyped (node : WorkflowNode) (inputData : Dict String Value) : Prop :=
  ∀ field ∈ node.inputFields, ∀ v, inputData.get? field.1 = some v → field.2 v

theorem getD_of_typed {inputData : Dict String Value} {P : Value → Prop} {field : String}
    {dflt : Value} (h : ∀ v, inputData.get? field = some v → P v) (hdflt : P dflt) :
    P (inputData.getD field dflt) := by
  rw [Dict.getD]
  cases hv : inputData.get? field with
  | none => exact hdflt
  | some v => exact h v hv

theorem getOr_of_typed {inputData : Dict String Value} {P : Value → Prop} {first second : String}
    {dflt : Value} (hfirst : ∀ v, inputData.get? first = some v → P v)
    (hsecond : ∀ v, inputData.get? second = some v → P v) (hnone : P .none) (hdflt : P dflt) :
    P (getOr inputData first second dflt) := by
  rw [getOr]
  split
  · exact getD_of_typed hfirst hnone
  · exact getD_of_typed hsecond hdflt

/-- The text of a field that holds one. -/
def textOf : Value → String
  | .str s => s
  | _ => ""

theorem asText_of_isText {v : Value} (h : IsText v) : asText v = .ok (textOf v) := by
  obtain ⟨s, rfl⟩ := h
  rfl

theorem isText_empty : IsText (.str "") := ⟨"", rfl⟩

/-! ## Splitting and embedding -/

/-- `headers_to_split_on` holds strings. -/
def HeadersUsable (headers : Value) : Prop :=
  ∃ items, headers.iter = .ok items ∧ ∀ h ∈ items, IsText h

theorem succeeds_escape_iff (h : Value) :
    Succeeds (MarkdownHeaderSplitterNode.escape h) ↔ IsText h := by
  cases h with
  | str s => exact iff_of_true ⟨_, rfl⟩ ⟨s, rfl⟩
  | _ =>
    refine iff_of_false (not_succeeds_error _) ?_
    rintro ⟨s, hs⟩
    cases hs

theorem MarkdownHeaderSplitterNode.succeeds_run_iff {inputData config : Dict String Value}
    {text : String} (htext : inputData.getD "text" (.str "") = .str text) :
    Succeeds (run inputData config) ↔ text = "" ∨
      HeadersUsable (config.getD "headers_to_split_on" (.list [.str "#", .str "##", .str "###"])) := by
  have hheaders : getItem (mergedConfig defaultConfig config) "headers_to_split_on" =
      .ok (config.getD "headers_to_split_on" (.list [.str "#", .str "##", .str "###"])) :=
    getItem_mergedConfig rfl
  simp only [run, htext, asText, ok_bind]
  by_cases hne : text = ""
  · simp [hne]
  · rw [if_neg hne, hheaders, ok_bind, or_iff_right hne, succeeds_bind, HeadersUsable]
    refine exists_congr fun items => and_congr_right fun _ => ?_
    simp only [succeeds_bind, succeeds_pure, and_true]
    rw [← Succeeds, succeeds_mapM]
    simp only [succeeds_escape_iff]

theorem textsToEmbed_of_typed {inputData : Dict String Value}
    (htexts : ∀ v, inputData.get? "texts" = some v → IsTexts v)
    (hchunks : ∀ v, inputData.get? "chunks" = some v → IsTexts v) :
    textsToEmbed inputData = .none ∨ ∃ xs, textsToEmbed inputData = .list xs := by
  have htyped : IsTexts (getOr inputData "texts" "chunks" (.list [])) :=
    getOr_of_typed htexts hchunks (.inl rfl) (.inr (.inr ⟨[], rfl⟩))
  rw [textsToEmbed]
  rcases htyped with h | ⟨s, h⟩ | ⟨xs, h⟩ <;> rw [h]
  · exact .inl rfl
  · exact .inr ⟨_, rfl⟩
  · exact .inr ⟨xs, rfl⟩

theorem truthy_list (xs : List Value) : (Value.list xs).truthy = !xs.isEmpty := rfl

theorem OpenAIEmbeddingNode.succeeds_run_iff {inputData : Dict String Value}
    (config : Dict String Value)
    (htexts : ∀ v, inputData.get? "texts" = some v → IsTexts v)
    (hchunks : ∀ v, inputData.get? "chunks" = some v → IsTexts v) :
    Succeeds (run inputData config) ↔ (textsToEmbed inputData).truthy = false ∨
      (config.getD "dimensions" (.int 1536)).index?.isSome = true := by
  have hdimensions : getItem (mergedConfig defaultConfig config) "dimensions" =
      .ok (config.getD "dimensions" (.int 1536)) := getItem_mergedConfig rfl
  have hmodel : getItem (mergedConfig defaultConfig config) "model" =
      .ok (config.getD "model" (.str "text-embedding-3-small")) := getItem_mergedConfig rfl
  rw [run, hdimensions, ok_bind]
  rcases textsToEmbed_of_typed htexts hchunks with h | ⟨xs, h⟩
  · rw [h]
    exact iff_of_true ⟨_, rfl⟩ (.inl rfl)
  · rw [h, truthy_list]
    cases xs with
    | nil => exact iff_of_true ⟨_, rfl⟩ (.inl rfl)
    | cons x rest =>
      simp only [Value.iter, Value.len, hmodel, ok_bind, List.isEmpty_cons, Bool.not_false,
        Bool.not_true, Bool.false_eq_true, if_false, Bool.true_eq_false, false_or, succeeds_bind,
        succeeds_pure, and_true]
      rw [← Succeeds, succeeds_mapM]
      simp only [succeeds_repeated_iff]
      exact ⟨fun hall => hall x List.mem_cons_self, fun hindex _ _ => hindex⟩

theorem OllamaEmbeddingNode.succeeds_run {inputData : Dict String Value}
    (config : Dict String Value)
    (htexts : ∀ v, inputData.get? "texts" = some v → IsTexts v)
    (hchunks : ∀ v, inputData.get? "chunks" = some v → IsTexts v) :
    Succeeds (run inputData config) := by
  have hmodel : getItem (mergedConfig defaultConfig config) "model" =
      .ok (config.getD "model" (.str "nomic-embed-text")) := getItem_mergedConfig rfl
  rw [run, hmodel, ok_bind]
  rcases textsToEmbed_of_typed htexts hchunks with h | ⟨xs, h⟩
  · rw [h]
    exact ⟨_, rfl⟩
  · rw [h, truthy_list]
    cases xs with
    | nil => exact ⟨_, rfl⟩
    | cons x rest =>
      obtain ⟨embeddings, hembeddings⟩ := (succeeds_mapM
        (fun _ : Value => Value.repeated (.float 0#64) (.int 768)) (x :: rest)).mpr
          fun _ _ => (succeeds_repeated_iff _ _).mpr rfl
      simp only [Value.iter, Value.len, ok_bind, hembeddings]
      exact ⟨_, rfl⟩

/-! ## Retrieval and reranking -/

/-- There is no embedding for the query, which is reported. -/
def LacksEmbedding (inputData : Dict String Value) : Prop :=
  (getOr inputData "query_embedding" "embedding" .none).truthy = false ∧
    ∃ query, inputData.get? "query" = some query

theorem VectorRetrievalNode.within_run_iff (inputData config : Dict String Value) :
    Within NodeError.Declared (run inputData config) ↔
      LacksEmbedding inputData ∨ LimitUsable (config.getD "top_k" (.int 5)) 5 := by
  have htopK : getItem (mergedConfig defaultConfig config) "top_k" =
      .ok (config.getD "top_k" (.int 5)) := getItem_mergedConfig rfl
  have hcollection : getItem (mergedConfig defaultConfig config) "collection_name" =
      .ok (config.getD "collection_name" (.str "default")) := getItem_mergedConfig rfl
  rw [run]
  by_cases hlacks : LacksEmbedding inputData
  · have hguard : (!(getOr inputData "query_embedding" "embedding" .none).truthy) = true ∧
        "query" ∈ inputData.keys := by
      rw [hlacks.1, Dict.mem_keys_iff]
      exact ⟨rfl, hlacks.2⟩
    rw [if_pos hguard]
    exact iff_of_true ((within_error _ _).mpr trivial) (.inl hlacks)
  · have hguard : ¬((!(getOr inputData "query_embedding" "embedding" .none).truthy) = true ∧
        "query" ∈ inputData.keys) := by
      rw [Bool.not_eq_true', Dict.mem_keys_iff]
      exact hlacks
    rw [if_neg hguard, or_iff_right hlacks, htopK, hcollection]
    simp only [within_liftM_bind, Except.ok.injEq, exists_eq_left']
    rw [← succeeds_minInt_index_iff, succeeds_bind]
    simp [Succeeds]

theorem HybridRetrievalNode.succeeds_run_iff {inputData : Dict String Value}
    (config : Dict String Value) (hquery : ∀ v, inputData.get? "query" = some v → IsText v) :
    Succeeds (run inputData config) ↔ LimitUsable (config.getD "top_k" (.int 5)) 5 := by
  have htopK : getItem (mergedConfig defaultConfig config) "top_k" =
      .ok (config.getD "top_k" (.int 5)) := getItem_mergedConfig rfl
  have hweight : getItem (mergedConfig defaultConfig config) "vector_weight" =
      .ok (config.getD "vector_weight" (.float 0x3FE6666666666666#64)) := getItem_mergedConfig rfl
  rw [run, asText_of_isText (getD_of_typed hquery isText_empty), htopK, hweight,
    ← succeeds_minInt_index_iff]
  simp only [ok_bind, succeeds_bind, succeeds_pure, and_true]
  rfl

/-- The score of each document can be multiplied with a `float`. -/
def ScoresUsable (docs : List Value) : Prop :=
  ∀ doc ∈ docs, ∀ i, doc.attrGet "score" (.int 0) = .ok (.int i) → Double.hasFloat i = true

theorem succeeds_ofInt_iff (i : Int) : Succeeds (Double.ofInt i) ↔ Double.hasFloat i = true := by
  rw [Double.ofInt]
  split <;> simp_all

theorem succeeds_boostedScore_iff {doc : Value} {kvs : List (String × Value)}
    (hdoc : doc = .dict kvs)
    (hscore : ∀ score, Assoc.get "score" kvs = some score → score.isNumber = true) :
    Succeeds (CrossEncoderRerankerNode.boostedScore doc) ↔
      ∀ i, doc.attrGet "score" (.int 0) = .ok (.int i) → Double.hasFloat i = true := by
  subst hdoc
  have hnumber : ((Assoc.get "score" kvs).getD (.int 0)).isNumber = true := by
    cases hs : Assoc.get "score" kvs with
    | none => rfl
    | some score => exact hscore score hs
  rw [CrossEncoderRerankerNode.boostedScore, Value.attrGet, ok_bind]
  generalize (Assoc.get "score" kvs).getD (.int 0) = score at hnumber
  cases score with
  | int i =>
    rw [Value.timesFloat, succeeds_bind]
    simp only [succeeds_pure, and_true, Except.ok.injEq, Value.int.injEq, forall_eq']
    exact succeeds_ofInt_iff i
  | bool b => cases b <;> exact iff_of_true ⟨_, rfl⟩ (by simp)
  | float x => exact iff_of_true ⟨_, rfl⟩ (by simp)
  | _ => cases hnumber

theorem CrossEncoderRerankerNode.succeeds_run_iff {inputData config : Dict String Value}
    (htopK : (config.getD "top_k" (.int 5)).isNumber = true)
    (hresults : ∀ v, inputData.get? "results" = some v → IsScoredDocuments v)
    (hdocuments : ∀ v, inputData.get? "documents" = some v → IsScoredDocuments v) :
    Succeeds (run inputData config) ↔ ∀ docs, docs ≠ [] →
      getOr inputData "results" "documents" (.list []) = .list docs →
        LimitUsable (config.getD "top_k" (.int 5)) docs.length ∧ ScoresUsable docs := by
  have hsetting : getItem (mergedConfig defaultConfig config) "top_k" =
      .ok (config.getD "top_k" (.int 5)) := getItem_mergedConfig rfl
  have hmodel : getItem (mergedConfig defaultConfig config) "model" =
      .ok (config.getD "model" (.str "cross-encoder/ms-marco-MiniLM-L-6-v2")) :=
    getItem_mergedConfig rfl
  have htyped : IsScoredDocuments (getOr inputData "results" "documents" (.list [])) :=
    getOr_of_typed hresults hdocuments (.inl rfl) (.inr ⟨[], rfl, by simp⟩)
  rw [run]
  rcases htyped with h | ⟨docs, h, hdocs⟩
  · rw [h]
    refine iff_of_true ⟨_, rfl⟩ ?_
    rintro docs - ⟨⟩
  · rw [h, truthy_list]
    cases docs with
    | nil =>
      refine iff_of_true ⟨_, rfl⟩ ?_
      rintro docs hne ⟨⟩
      exact absurd rfl hne
    | cons doc rest =>
      have hscores : Succeeds ((doc :: rest).mapM boostedScore) ↔ ScoresUsable (doc :: rest) := by
        rw [succeeds_mapM, ScoresUsable]
        refine forall₂_congr fun doc hmem => ?_
        obtain ⟨kvs, hdoc, hscore⟩ := hdocs doc hmem
        exact succeeds_boostedScore_iff hdoc hscore
      have hall : (∀ docs, docs ≠ [] → Value.list (doc :: rest) = .list docs →
          LimitUsable (config.getD "top_k" (.int 5)) docs.length ∧ ScoresUsable docs) ↔
          LimitUsable (config.getD "top_k" (.int 5)) (doc :: rest).length ∧
            ScoresUsable (doc :: rest) := by
        refine ⟨fun h => h _ (List.cons_ne_nil _ _) rfl, ?_⟩
        rintro h docs - ⟨⟩
        exact h
      -- what can fail is the multiplication of a score and the slice
      obtain ⟨limit, hlimit, hnumber, husable⟩ := exists_limit htopK (doc :: rest).length
      rw [hall, ← hscores, ← husable, ← succeeds_sliceStop_iff (doc :: rest).length hnumber]
      simp only [Value.len, Value.iter, hsetting, hmodel, hlimit, ok_bind, List.isEmpty_cons,
        Bool.not_false, Bool.not_true, Bool.false_eq_true, if_false, succeeds_bind, succeeds_pure,
        and_true]
      rw [← Succeeds, exists_and_right, and_comm]
      rfl

/-! ## Generation and evaluation -/

theorem getText_of_typed {inputData : Dict String Value} {first second : String}
    (hfirst : ∀ v, inputData.get? first = some v → IsText v)
    (hsecond : ∀ v, inputData.get? second = some v → IsText v) :
    ∃ s, getText inputData first second = .ok s :=
  ⟨_, asText_of_isText (getD_of_typed hfirst (getD_of_typed hsecond isText_empty))⟩

theorem LLMGenerationNode.succeeds_run (rt : Runtime) {inputData : Dict String Value}
    (config : Dict String Value)
    (hquery : ∀ v, inputData.get? "query" = some v → IsText v)
    (hquestion : ∀ v, inputData.get? "question" = some v → IsText v)
    (hresults : ∀ v, inputData.get? "results" = some v → IsDocuments v)
    (hcontext : ∀ v, inputData.get? "context" = some v → IsDocuments v) :
    Succeeds (run rt inputData config) := by
  have hmodel : getItem (mergedConfig defaultConfig config) "model" =
      .ok (config.getD "model" (.str "gpt-4o-mini")) := getItem_mergedConfig rfl
  have htemperature : getItem (mergedConfig defaultConfig config) "temperature" =
      .ok (config.getD "temperature" (.float 0x3FE6666666666666#64)) := getItem_mergedConfig rfl
  have hmaxTokens : getItem (mergedConfig defaultConfig config) "max_tokens" =
      .ok (config.getD "max_tokens" (.int 1000)) := getItem_mergedConfig rfl
  obtain ⟨query, hquery'⟩ := getText_of_typed hquery hquestion
  have hdocs : IsDocuments (inputData.getD "results" (inputData.getD "context" (.list []))) :=
    getD_of_typed hresults (getD_of_typed hcontext (.inr ⟨[], rfl, by simp⟩))
  rw [run, hquery', hmodel, htemperature, hmaxTokens]
  rcases hdocs with h | ⟨docs, h, hdicts⟩
  · simp only [h, Value.truthy, Bool.false_eq_true, if_false, ok_bind, pure_bind, succeeds_pure]
  · cases docs with
    | nil =>
      simp only [h, truthy_list, List.isEmpty_nil, Bool.not_true, Bool.false_eq_true, if_false,
        ok_bind, pure_bind, succeeds_pure]
    | cons doc rest =>
      obtain ⟨lines, hlines⟩ : Succeeds (((doc :: rest).take 5).zipIdx.mapM fun doc =>
          documentLine rt doc.1 doc.2) := by
        refine (succeeds_mapM _ _).mpr fun di hdi => ?_
        obtain ⟨kvs, hkvs⟩ := hdicts di.1 (List.mem_of_mem_take (List.fst_mem_of_mem_zipIdx hdi))
        rw [documentLine, hkvs]
        exact ⟨_, rfl⟩
      simp only [h, truthy_list, List.isEmpty_cons, Bool.not_false, if_true, Value.firstItems,
        ok_bind, hlines, pure_bind, succeeds_pure]

namespace RagasEvalNode

/-- Accepted metrics are names of metrics. -/
theorem metrics_of_accepted {py : Interpreter} {config : Dict String Value}
    (haccepted : validateConfig py config = .ok []) :
    ∃ items, (config.getD "metrics" (.list [.str "faithfulness", .str "answer_relevancy"])).iter =
      .ok items ∧ ∀ m ∈ items, IsText m := by
  obtain ⟨items, hitems, hvalid⟩ := bind_ok haccepted
  refine ⟨items, hitems, fun m hm => ?_⟩
  have hempty : items.filter (fun m => !m.inStrings validMetrics) = [] := by
    by_contra hne
    rw [PyObject.notIn_values, ok_bind, if_neg (by rwa [List.isEmpty_iff])] at hvalid
    obtain ⟨shown, -, herrors⟩ := bind_ok hvalid
    cases herrors
  have hin : m.inStrings validMetrics = true := by
    simpa using List.filter_eq_nil_iff.mp hempty m hm
  cases m with
  | str s => exact ⟨s, rfl⟩
  | _ => cases hin

/-- The loop over names of metrics returns; `random` is bound after it if there was one. -/
theorem scoreAll_of_isText (rt : Runtime) (question : String) {items : List Value}
    (hitems : ∀ m ∈ items, IsText m) :
    ∃ s, scoreAll rt question items = .ok s ∧ (s.seed = none ↔ items = []) := by
  have hloop : ∀ (items : List Value) (s : ScoreState), (∀ m ∈ items, IsText m) →
      ∃ s', items.foldlM (addScore rt question) s = .ok s' ∧
        (s'.seed = none ↔ items = [] ∧ s.seed = none) := by
    intro items
    induction items with
    | nil => exact fun s _ => ⟨s, rfl, by simp⟩
    | cons m rest ih =>
      intro s hall
      rw [List.forall_mem_cons] at hall
      obtain ⟨⟨name, rfl⟩, hrest⟩ := hall
      obtain ⟨s', hs', hseed⟩ := ih ⟨s.scores.set name (rt.draw (question ++ name) 0),
        some (question ++ name)⟩ hrest
      exact ⟨s', hs', by simp [hseed]⟩
  obtain ⟨s, hs, hseed⟩ := hloop items ⟨Dict.empty, none⟩ hitems
  exact ⟨s, hs, by simpa using hseed⟩

theorem truthy_iff_of_iter {v : Value} {items : List Value} (h : v.iter = .ok items) :
    v.truthy = true ↔ items ≠ [] := by
  cases v with
  | list xs =>
    obtain rfl := Except.ok.inj h
    simp [Value.truthy]
  | str s =>
    obtain rfl := Except.ok.inj h
    simp [Value.truthy, String.toList_eq_nil_iff]
  | dict kvs =>
    obtain rfl := Except.ok.inj h
    simp [Value.truthy]
  | _ => cases h

theorem within_run_iff (rt : Runtime) {inputData config : Dict String Value}
    (haccepted : validateConfig rt.toInterpreter config = .ok [])
    (hquestion : ∀ v, inputData.get? "question" = some v → IsText v)
    (hquery : ∀ v, inputData.get? "query" = some v → IsText v) :
    Within NodeError.Declared (run rt inputData config) ↔
      (config.getD "metrics" (.list [.str "faithfulness", .str "answer_relevancy"])).truthy = true ∨
        (inputData.getD "ground_truth" .none).truthy = false := by
  have hmetrics : getItem (mergedConfig defaultConfig config) "metrics" =
      .ok (config.getD "metrics" (.list [.str "faithfulness", .str "answer_relevancy"])) :=
    getItem_mergedConfig rfl
  obtain ⟨question, hquestion'⟩ := getText_of_typed hquestion hquery
  obtain ⟨items, hiter, hitems⟩ := metrics_of_accepted haccepted
  obtain ⟨s, hs, hseed⟩ := scoreAll_of_isText rt question hitems
  rw [run, hquestion', hmetrics, truthy_iff_of_iter hiter, ne_eq, ← hseed]
  simp only [within_liftM_bind, Except.ok.injEq, exists_eq_left', hiter, hs]
  rw [comparison]
  cases (inputData.getD "ground_truth" .none).truthy with
  | false => exact iff_of_true (within_ok _ _) (.inr rfl)
  | true =>
    -- the draw for the comparison needs the import of some round
    cases s.seed with
    | some seed => exact iff_of_true (within_ok _ _) (.inl (Option.some_ne_none seed))
    | none =>
      refine iff_of_false (fun h => h _ rfl) ?_
      simp

end RagasEvalNode

end RagEval.Workflows
