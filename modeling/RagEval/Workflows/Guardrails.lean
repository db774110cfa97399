import RagEval.Workflows.NodeReturns

/-!
# When the guardrails return

Neither guardrail has its configuration checked. Their patterns have to be regular expressions,
and the input guardrail cuts the text at `max_length` unless it raises `NodeExecutionError`.
-/

namespace RagEval.Workflows
open RagEval.Lib RagEval.Lib.Outcome

variable {α β : Type}

/-- The patterns are regular expressions. -/
def PatternsUsable (rt : Runtime) (patterns : Value) : Prop :=
  ∃ items, patterns.iter = .ok items ∧ ∀ p ∈ items, ∃ s, p = .str s ∧ rt.compiles s = true

/-- The fields can be looked up. -/
def FieldsUsable (fields : Value) : Prop :=
  ∃ items, fields.iter = .ok items ∧ ∀ f ∈ items, f.hashable = true

/-- The computation raises nothing that is declared. -/
abbrev Undeclared (x : Except NodeError α) : Prop := Within (fun e => ¬e.Declared) x

theorem undeclared_violationsOf {check : Value → Except NodeError Bool}
    (hcheck : ∀ item, Undeclared (check item)) (message : Value → String) (items : List Value) :
    Undeclared (violationsOf check message items) := by
  refine within_bind (within_mapM (fun item => ?_) items) fun _ => within_ok _ _
  exact within_bind (hcheck item) fun _ => within_ok _ _

/-- The messages are those of the elements that fail. -/
theorem violationsOf_eq {check : Value → Except NodeError Bool} (message : Value → String)
    {items : List Value} (hitems : ∀ item ∈ items, Succeeds (check item)) :
    ∃ messages, violationsOf check message items = .ok messages ∧
      (messages = [] ↔ ∀ item ∈ items, check item ≠ .ok true) := by
  induction items with
  | nil => exact ⟨[], rfl, by simp⟩
  | cons item rest ih =>
    rw [List.forall_mem_cons] at hitems
    obtain ⟨failed, hfailed⟩ := hitems.1
    obtain ⟨messages, hmessages, hnil⟩ := ih hitems.2
    obtain ⟨found, hfound, hflat⟩ := bind_ok hmessages
    obtain rfl : found.flatten = messages := Except.ok.inj hflat
    refine ⟨(if failed then [message item] else []) ++ found.flatten, ?_, ?_⟩
    · rw [violationsOf, List.mapM_cons, hfailed]
      simp only [ok_bind, hfound]
      cases failed <;> rfl
    · rw [List.append_eq_nil_iff, hnil, List.forall_mem_cons, hfailed]
      cases failed <;> simp

theorem succeeds_violationsOf_iff {check : Value → Except NodeError Bool}
    {message : Value → String} {items : List Value} :
    Succeeds (violationsOf check message items) ↔ ∀ item ∈ items, Succeeds (check item) := by
  refine ⟨?_, fun h => ?_⟩
  · rintro ⟨messages, hmessages⟩
    obtain ⟨found, hfound, -⟩ := bind_ok hmessages
    intro item hitem
    obtain ⟨messages', hmessages'⟩ := (succeeds_mapM _ _).mp ⟨found, hfound⟩ item hitem
    obtain ⟨failed, hfailed, -⟩ := bind_ok hmessages'
    exact ⟨failed, hfailed⟩
  · obtain ⟨messages, hmessages, -⟩ := violationsOf_eq message h
    exact ⟨messages, hmessages⟩

theorem undeclared_liftM (x : Except PyError α) :
    Undeclared (liftM x : Except NodeError α) := by
  cases x with
  | ok a => exact within_ok _ a
  | error e => exact (within_error _ _).mpr not_false

theorem undeclared_searchPattern (rt : Runtime) (text : String) (p : Value) :
    Undeclared (searchPattern rt text p) := by
  cases p with
  | str s =>
    rw [searchPattern]
    split
    · exact within_ok _ _
    · exact (within_error _ _).mpr not_false
  | _ =>
    refine within_bind (undeclared_liftM _) fun _ => ?_
    exact (within_error _ _).mpr not_false

theorem succeeds_searchPattern_iff (rt : Runtime) (text : String) (p : Value) :
    Succeeds (searchPattern rt text p) ↔ ∃ s, p = .str s ∧ rt.compiles s = true := by
  cases p with
  | str s =>
    rw [searchPattern]
    cases hs : rt.compiles s <;> simp [hs]
  | _ =>
    refine iff_of_false ?_ ?_
    · rintro ⟨b, hb⟩
      obtain ⟨_, -, hthrow⟩ := bind_ok hb
      cases hthrow
    · rintro ⟨s, hs, -⟩
      cases hs

theorem undeclared_isMissing (inputData : Dict String Value) (f : Value) :
    Undeclared (InputGuardrailNode.isMissing inputData f) := by
  refine within_bind (undeclared_liftM _) fun _ => ?_
  cases f <;> exact within_ok _ _

theorem succeeds_isMissing_iff (inputData : Dict String Value) (f : Value) :
    Succeeds (InputGuardrailNode.isMissing inputData f) ↔ f.hashable = true := by
  cases f with
  | list xs => exact iff_of_false (not_succeeds_error _) Bool.false_ne_true
  | dict kvs => exact iff_of_false (not_succeeds_error _) Bool.false_ne_true
  | _ => exact iff_of_true ⟨_, rfl⟩ rfl

/-- A run that ends in a declared exception or in one more operation. -/
theorem within_block_iff {blocks : Prop} [Decidable blocks] {e : NodeError} (he : e.Declared)
    (x : Except PyError α) (f : α → β) :
    Within NodeError.Declared
        (if blocks then throw e else (liftM x : Except NodeError α) >>= fun a => pure (f a)) ↔
      Succeeds x ∨ blocks := by
  by_cases hblocks : blocks
  · rw [if_pos hblocks]
    exact iff_of_true ((within_error _ _).mpr he) (.inr hblocks)
  · rw [if_neg hblocks, or_iff_left hblocks, within_liftM_bind]
    simp only [within_pure, and_true]
    rfl

/-- Some check of the input guardrail fails. -/
def InputGuardrailNode.Violated (rt : Runtime) (inputData : Dict String Value) (text : String)
    (maxLength patterns fields : Value) : Prop :=
  Value.gt (.int text.length) maxLength = .ok true ∨
    (∃ items p, patterns.iter = .ok items ∧ p ∈ items ∧ searchPattern rt text p = .ok true) ∨
      ∃ items f, fields.iter = .ok items ∧ f ∈ items ∧ isMissing inputData f = .ok true

/-- The messages of the three checks, once they are made. -/
theorem InputGuardrailNode.violations_ne_nil_iff {rt : Runtime} {inputData : Dict String Value}
    {text tooLongMessage : String} {maxLength patterns fields : Value} {tooLong : Bool}
    {items items' : List Value} {blocked missing : List String}
    (htooLong : Value.gt (.int text.length) maxLength = .ok tooLong)
    (hitems : patterns.iter = .ok items) (hitems' : fields.iter = .ok items')
    (hblocked : blocked = [] ↔ ∀ p ∈ items, searchPattern rt text p ≠ .ok true)
    (hmissing : missing = [] ↔ ∀ f ∈ items', isMissing inputData f ≠ .ok true) :
    (if tooLong then [tooLongMessage] else []) ++ blocked ++ missing ≠ [] ↔
      Violated rt inputData text maxLength patterns fields := by
  rw [ne_eq, List.append_eq_nil_iff, List.append_eq_nil_iff, hblocked, hmissing, Violated, htooLong]
  simp only [hitems, hitems', Except.ok.injEq, not_and_or, not_forall, not_not, or_assoc,
    exists_prop]
  cases tooLong <;> simp

theorem InputGuardrailNode.within_run_iff (rt : Runtime) {inputData : Dict String Value}
    (config : Dict String Value) {text : String}
    (htext : inputData.getD "text" (.str "") = .str text) :
    Within NodeError.Declared (run rt inputData config) ↔
      (config.getD "max_length" (.int 10000)).isNumber = true ∧
        PatternsUsable rt (config.getD "blocked_patterns" (.list [])) ∧
          FieldsUsable (config.getD "required_fields" (.list [])) ∧
            ((config.getD "max_length" (.int 10000)).index?.isSome = true ∨
              (config.getD "block_on_violation" (.bool true)).truthy = true ∧
                Violated rt inputData text (config.getD "max_length" (.int 10000))
                  (config.getD "blocked_patterns" (.list []))
                  (config.getD "required_fields" (.list []))) := by
  have hmaxLength : getItem (mergedConfig defaultConfig config) "max_length" =
      .ok (config.getD "max_length" (.int 10000)) := getItem_mergedConfig rfl
  have hpatterns : getItem (mergedConfig defaultConfig config) "blocked_patterns" =
      .ok (config.getD "blocked_patterns" (.list [])) := getItem_mergedConfig rfl
  have hfields : getItem (mergedConfig defaultConfig config) "required_fields" =
      .ok (config.getD "required_fields" (.list [])) := getItem_mergedConfig rfl
  have hblock : (mergedConfig defaultConfig config).getD "block_on_violation" (.bool true) =
      config.getD "block_on_violation" (.bool true) := getD_mergedConfig_of_none rfl _
  rw [run, htext, hmaxLength, hpatterns, hfields, hblock]
  generalize config.getD "max_length" (.int 10000) = maxLength
  generalize config.getD "blocked_patterns" (.list []) = patterns
  generalize config.getD "required_fields" (.list []) = fields
  generalize (config.getD "block_on_violation" (.bool true)).truthy = block
  simp only [within_liftM_bind, asText, Except.ok.injEq, exists_eq_left',
    within_bind_iff (undeclared_violationsOf (undeclared_searchPattern rt text) _ _),
    within_bind_iff (undeclared_violationsOf (undeclared_isMissing inputData) _ _)]
  by_cases hchecks : maxLength.isNumber = true ∧ PatternsUsable rt patterns ∧ FieldsUsable fields
  · -- every check is made, and the violations decide
    obtain ⟨hnumber, ⟨items, hitems, hsearch⟩, items', hitems', hmiss⟩ := id hchecks
    obtain ⟨tooLong, htooLong⟩ : ∃ tooLong, Value.gt (.int text.length) maxLength = .ok tooLong :=
      Value.compareNum_ok _ _ rfl hnumber
    simp only [← succeeds_searchPattern_iff rt text] at hsearch
    simp only [← succeeds_isMissing_iff inputData] at hmiss
    obtain ⟨blocked, hblocked, hblockedNil⟩ :=
      violationsOf_eq (fun p => "Input contains blocked pattern: " ++ rt.str p) hsearch
    obtain ⟨missing, hmissing, hmissingNil⟩ :=
      violationsOf_eq (fun f => "Required field missing: " ++ rt.str f) hmiss
    simp only [hitems, hitems', htooLong, hblocked, hmissing, Except.ok.injEq, exists_eq_left']
    rw [within_block_iff (by exact trivial), succeeds_sliceStop_iff _ hnumber,
      violations_ne_nil_iff htooLong hitems hitems' hblockedNil hmissingNil, and_comm (b := block = true)]
    simp only [hchecks.1, hchecks.2.1, hchecks.2.2, true_and]
  · refine iff_of_false ?_ fun h => hchecks ⟨h.1, h.2.1, h.2.2.1⟩
    rintro ⟨tooLong, htooLong, items, hitems, blocked, hblocked, items', hitems', missing, hmissing, -⟩
    have hsearch := succeeds_violationsOf_iff.mp ⟨blocked, hblocked⟩
    have hmiss := succeeds_violationsOf_iff.mp ⟨missing, hmissing⟩
    simp only [succeeds_searchPattern_iff] at hsearch
    simp only [succeeds_isMissing_iff] at hmiss
    exact hchecks ⟨(Value.isNumber_of_compareNum htooLong).2, ⟨items, hitems, hsearch⟩,
      items', hitems', hmiss⟩

theorem OutputGuardrailNode.within_run_iff (rt : Runtime) {inputData : Dict String Value}
    (config : Dict String Value)
    (hanswer : ∀ v, inputData.get? "answer" = some v → IsText v)
    (htext : ∀ v, inputData.get? "text" = some v → IsText v) :
    Within NodeError.Declared (run rt inputData config) ↔
      (config.getD "max_length" (.int 50000)).isNumber = true ∧
        PatternsUsable rt (config.getD "blocked_patterns" (.list [])) := by
  have hmaxLength : getItem (mergedConfig defaultConfig config) "max_length" =
      .ok (config.getD "max_length" (.int 50000)) := getItem_mergedConfig rfl
  have hpatterns : getItem (mergedConfig defaultConfig config) "blocked_patterns" =
      .ok (config.getD "blocked_patterns" (.list [])) := getItem_mergedConfig rfl
  have hredaction : getItem (mergedConfig defaultConfig config) "pii_redaction" =
      .ok (config.getD "pii_redaction" (.bool false)) := getItem_mergedConfig rfl
  obtain ⟨answer, hanswer'⟩ := getText_of_typed hanswer htext
  rw [run, hanswer', hmaxLength, hpatterns, hredaction]
  simp only [within_liftM_bind, Except.ok.injEq, exists_eq_left',
    within_bind_iff (undeclared_violationsOf (undeclared_searchPattern rt answer) _ _),
    within_pure, and_true, exists_eq']
  constructor
  · rintro ⟨tooLong, htooLong, items, hitems, blocked, hblocked⟩
    have hsearch := succeeds_violationsOf_iff.mp ⟨blocked, hblocked⟩
    simp only [succeeds_searchPattern_iff] at hsearch
    exact ⟨(Value.isNumber_of_compareNum htooLong).2, items, hitems, hsearch⟩
  · rintro ⟨hnumber, items, hitems, hsearch⟩
    obtain ⟨tooLong, htooLong⟩ : ∃ tooLong, Value.gt (.int answer.length)
        (config.getD "max_length" (.int 50000)) = .ok tooLong :=
      Value.compareNum_ok _ _ rfl hnumber
    simp only [← succeeds_searchPattern_iff rt answer] at hsearch
    exact ⟨tooLong, htooLong, items, hitems, succeeds_violationsOf_iff.mpr hsearch⟩

end RagEval.Workflows
