import Mathlib.Data.Finset.Dedup
import Mathlib.Data.Finset.Sort
import Mathlib.Data.String.Basic
import RagEval.Lib.Dict
import RagEval.Lib.Operators

/-!
# Feature flags

`app/core/config/feature_flags.py`. The enabled features are one string with commas, which every
call parses and every change writes again, in the order in which the interpreter happens to
iterate the set. To the calls it is a set of names: `enable` inserts into it and `disable` takes
away, and nothing else is seen of the string.

## Main definitions

- `FeatureFlags.enable`, `FeatureFlags.disable`, `FeatureFlags.isEnabled` — as in the source
- `FlagName` — the names that a change can write and the next call read back
- `lastChange` — what the last call on a name has done

## Main results

- `getEnabledSet_apply` — a change of the string is a change of the set
- `isEnabled_apply_of_ne` — a change of a flag leaves the others alone
- `isEnabled_run` — the last change of a flag and the wildcard decide it
-/

namespace RagEval.Core
open RagEval.Lib

inductive FeatureFlag where
  | workflowV2 | langgraphRuntime | conditionalEdges
  | ragasMultiTurn | agentEvaluation | promptEvaluation
  | kafkaEvents | semanticCache | distributedLocks
  | enhancedAudit | piiDetection | promptInjectionGuard
  deriving Repr, DecidableEq

namespace FeatureFlag

def value : FeatureFlag → String
  | workflowV2 => "workflow_v2"
  | langgraphRuntime => "langgraph_runtime"
  | conditionalEdges => "conditional_edges"
  | ragasMultiTurn => "ragas_multi_turn"
  | agentEvaluation => "agent_evaluation"
  | promptEvaluation => "prompt_evaluation"
  | kafkaEvents => "kafka_events"
  | semanticCache => "semantic_cache"
  | distributedLocks => "distributed_locks"
  | enhancedAudit => "enhanced_audit"
  | piiDetection => "pii_detection"
  | promptInjectionGuard => "prompt_injection_guard"

/-- The flags in the order of the class. -/
def all : List FeatureFlag :=
  [workflowV2, langgraphRuntime, conditionalEdges, ragasMultiTurn, agentEvaluation,
   promptEvaluation, kafkaEvents, semanticCache, distributedLocks, enhancedAudit, piiDetection,
   promptInjectionGuard]

end FeatureFlag

/-- `FeatureFlag | str`. -/
inductive FlagArg where
  | flag (flag : FeatureFlag)
  | name (name : String)

def FlagArg.flagName : FlagArg → String
  | flag f => f.value
  | name s => s

/-- An order in which sets are iterated. -/
structure SetOrder where
  list : Finset String → List String
  toFinset_list : ∀ s, (list s).toFinset = s
  nodup_list : ∀ s, (list s).Nodup

structure FeatureFlags where
  enabledFeatures : String := ""

namespace FeatureFlags

/-- `_get_enabled_set`. -/
def getEnabledSet (self : FeatureFlags) : Finset String :=
  (((Text.split self.enabledFeatures ',').filter (Text.strip · ≠ "")).map Text.strip).toFinset

def isEnabled (self : FeatureFlags) (flag : FlagArg) : Bool :=
  decide ("*" ∈ self.getEnabledSet) || decide (flag.flagName ∈ self.getEnabledSet)

def enable (order : SetOrder) (self : FeatureFlags) (flag : FlagArg) : FeatureFlags :=
  ⟨",".intercalate (order.list (insert flag.flagName self.getEnabledSet))⟩

def disable (order : SetOrder) (self : FeatureFlags) (flag : FlagArg) : FeatureFlags :=
  ⟨",".intercalate (order.list (self.getEnabledSet.erase flag.flagName))⟩

def getAllFlags (self : FeatureFlags) : Dict String Bool :=
  Dict.ofList (FeatureFlag.all.map fun flag =>
    (flag.value, decide (flag.value ∈ self.getEnabledSet) || decide ("*" ∈ self.getEnabledSet)))

/-! ## The string and the set -/

/-- A name that is nonempty, without a comma and without white space around it. -/
structure FlagName (name : String) : Prop where
  ne_empty : name ≠ ""
  no_comma : ',' ∉ name.toList
  stripped : Text.strip name = name

theorem flagName_value (flag : FeatureFlag) : FlagName flag.value := by
  cases flag <;> exact ⟨by decide, by decide +kernel, by decide +kernel⟩

theorem mem_getEnabledSet_iff (self : FeatureFlags) (name : String) :
    name ∈ self.getEnabledSet ↔
      name ≠ "" ∧ ∃ part ∈ Text.split self.enabledFeatures ',', Text.strip part = name := by
  simp only [getEnabledSet, List.mem_toFinset, List.mem_map, List.mem_filter, decide_eq_true_eq]
  constructor
  · rintro ⟨part, ⟨hpart, hne⟩, rfl⟩
    exact ⟨hne, part, hpart, rfl⟩
  · rintro ⟨hne, part, hpart, rfl⟩
    exact ⟨part, ⟨hpart, hne⟩, rfl⟩

/-- Whatever the string is, only names that can be written are read from it. -/
theorem flagName_of_mem {self : FeatureFlags} {name : String} (h : name ∈ self.getEnabledSet) :
    FlagName name := by
  obtain ⟨hne, part, hpart, rfl⟩ := (mem_getEnabledSet_iff self name).mp h
  exact ⟨hne, fun hmem => Text.not_mem_of_mem_split hpart (Text.mem_of_mem_strip hmem),
    Text.strip_strip part⟩

/-- What is written of a set of names is read as the set again, in whatever order it was
written. -/
theorem getEnabledSet_intercalate {names : List String} (h : ∀ name ∈ names, FlagName name) :
    getEnabledSet ⟨",".intercalate names⟩ = names.toFinset := by
  by_cases hnil : names = []
  · subst hnil
    rfl
  · have hsplit : Text.split (",".intercalate names) ',' = names :=
      Text.split_intercalate (c := ',') hnil fun name hname => (h name hname).no_comma
    ext name
    rw [mem_getEnabledSet_iff, List.mem_toFinset, hsplit]
    constructor
    · rintro ⟨-, part, hpart, rfl⟩
      rw [(h part hpart).stripped]
      exact hpart
    · intro hname
      exact ⟨(h name hname).ne_empty, name, hname, (h name hname).stripped⟩

theorem getEnabledSet_list (order : SetOrder) {s : Finset String} (h : ∀ name ∈ s, FlagName name) :
    getEnabledSet ⟨",".intercalate (order.list s)⟩ = s := by
  rw [getEnabledSet_intercalate, order.toFinset_list]
  intro name hname
  apply h name
  rw [← order.toFinset_list s, List.mem_toFinset]
  exact hname

section Change
variable (order : SetOrder) (self : FeatureFlags) {flag : FlagArg}

theorem getEnabledSet_enable (h : FlagName flag.flagName) :
    (enable order self flag).getEnabledSet = insert flag.flagName self.getEnabledSet := by
  refine getEnabledSet_list order fun name hname => ?_
  obtain rfl | hname := Finset.mem_insert.mp hname
  · exact h
  · exact flagName_of_mem hname

theorem getEnabledSet_disable :
    (disable order self flag).getEnabledSet = self.getEnabledSet.erase flag.flagName :=
  getEnabledSet_list order fun _ hname => flagName_of_mem (Finset.mem_of_mem_erase hname)

end Change

/-! ## Calls -/

/-- A call of `enable` or of `disable`. -/
structure Change where
  order : SetOrder
  enables : Bool
  flag : FlagArg

def Change.apply (self : FeatureFlags) (change : Change) : FeatureFlags :=
  if change.enables then enable change.order self change.flag
  else disable change.order self change.flag

/-- The calls one after the other. -/
def run (self : FeatureFlags) (changes : List Change) : FeatureFlags :=
  changes.foldl Change.apply self

section Apply
variable (self : FeatureFlags) (change : Change) (h : FlagName change.flag.flagName)
include h

/-- To the set of names a call is an insertion or a removal. -/
theorem getEnabledSet_apply :
    (change.apply self).getEnabledSet =
      if change.enables then insert change.flag.flagName self.getEnabledSet
      else self.getEnabledSet.erase change.flag.flagName := by
  rw [Change.apply]
  split
  · exact getEnabledSet_enable change.order self h
  · exact getEnabledSet_disable change.order self

theorem mem_apply_self_iff :
    change.flag.flagName ∈ (change.apply self).getEnabledSet ↔ change.enables = true := by
  rw [getEnabledSet_apply self change h]
  split
  · next henables => exact iff_of_true (Finset.mem_insert_self _ _) henables
  · next henables => exact iff_of_false (Finset.notMem_erase _ _) henables

theorem mem_apply_of_ne {name : String} (hne : name ≠ change.flag.flagName) :
    name ∈ (change.apply self).getEnabledSet ↔ name ∈ self.getEnabledSet := by
  rw [getEnabledSet_apply self change h]
  split
  · rw [Finset.mem_insert, or_iff_right hne]
  · rw [Finset.mem_erase, and_iff_right hne]

/-! ## The other flags -/

variable (hstar : change.flag.flagName ≠ "*")
include hstar

theorem isEnabled_apply_of_ne {flag : FlagArg} (hne : flag.flagName ≠ change.flag.flagName) :
    (change.apply self).isEnabled flag = self.isEnabled flag := by
  simp only [isEnabled, mem_apply_of_ne self change h hstar.symm,
    mem_apply_of_ne self change h hne]

theorem get?_getAllFlags_apply_of_ne {name : String} (hne : name ≠ change.flag.flagName) :
    (change.apply self).getAllFlags.get? name = self.getAllFlags.get? name := by
  refine Dict.get?_ofList_map_congr fun flag _ hflag => ?_
  subst hflag
  simp only [mem_apply_of_ne self change h hstar.symm, mem_apply_of_ne self change h hne]

end Apply

/-- The order of the code points of the names. -/
def sortedOrder : SetOrder where
  list s := s.sort (· ≤ ·)
  toFinset_list s := Finset.sort_toFinset s (· ≤ ·)
  nodup_list s := Finset.sort_nodup s (· ≤ ·)

/-- A change of a flag other than the wildcard changes nothing for another flag, in whatever
order the set is written: what is read of the string is the same apart from the flag. -/
theorem change_frame (self : FeatureFlags) (order : SetOrder) (f g : FlagArg)
    (hf : FlagName f.flagName) (hstar : f.flagName ≠ "*") (hne : g.flagName ≠ f.flagName) :
    (enable order self f).isEnabled g = self.isEnabled g ∧
      (disable order self f).isEnabled g = self.isEnabled g ∧
      ∀ name, name ≠ f.flagName →
        (enable order self f).getAllFlags.get? name = self.getAllFlags.get? name ∧
        (disable order self f).getAllFlags.get? name = self.getAllFlags.get? name := by
  refine ⟨isEnabled_apply_of_ne self ⟨order, true, f⟩ hf hstar hne,
    isEnabled_apply_of_ne self ⟨order, false, f⟩ hf hstar hne, fun name hname => ⟨?_, ?_⟩⟩
  · exact get?_getAllFlags_apply_of_ne self ⟨order, true, f⟩ hf hstar hname
  · exact get?_getAllFlags_apply_of_ne self ⟨order, false, f⟩ hf hstar hname

theorem change_frame_padded :
    (enable sortedOrder ⟨" kafka_events,, semantic_cache,kafka_events"⟩
        (.flag .workflowV2)).isEnabled (.flag .kafkaEvents) = true ∧
      (disable sortedOrder ⟨" kafka_events,, semantic_cache,kafka_events"⟩
        (.flag .semanticCache)).isEnabled (.flag .kafkaEvents) = true := by
  have henable := change_frame ⟨" kafka_events,, semantic_cache,kafka_events"⟩ sortedOrder
    (.flag .workflowV2) (.flag .kafkaEvents) (flagName_value .workflowV2) (by decide) (by decide)
  have hdisable := change_frame ⟨" kafka_events,, semantic_cache,kafka_events"⟩ sortedOrder
    (.flag .semanticCache) (.flag .kafkaEvents) (flagName_value .semanticCache) (by decide)
    (by decide)
  exact ⟨henable.1.trans (by decide +kernel), hdisable.2.1.trans (by decide +kernel)⟩

/-! ## Runs -/

/-- What the last call on the name did, if there was one. -/
def lastChange (name : String) (changes : List Change) : Option Bool :=
  (changes.filter fun change => change.flag.flagName = name).getLast?.map Change.enables

theorem lastChange_concat (name : String) (changes : List Change) (change : Change) :
    lastChange name (changes ++ [change]) =
      if change.flag.flagName = name then some change.enables else lastChange name changes := by
  rw [lastChange, List.filter_append]
  by_cases hname : change.flag.flagName = name
  · have hself : [change].filter (fun c => c.flag.flagName = name) = [change] := by simp [hname]
    rw [hself, if_pos hname, List.getLast?_concat, Option.map_some]
  · have hself : [change].filter (fun c => c.flag.flagName = name) = [] := by simp [hname]
    rw [hself, if_neg hname, List.append_nil, lastChange]

/-- A name is in the set if the last call on it put it there, or if it was there and no call was
made on it. -/
theorem mem_run_iff (self : FeatureFlags) {changes : List Change}
    (h : ∀ change ∈ changes, FlagName change.flag.flagName) (name : String) :
    name ∈ (self.run changes).getEnabledSet ↔
      lastChange name changes = some true ∨
        (lastChange name changes = none ∧ name ∈ self.getEnabledSet) := by
  induction changes using List.reverseRecOn with
  | nil => simp [run, lastChange]
  | append_singleton changes change ih =>
    have hlast : FlagName change.flag.flagName :=
      h change (List.mem_append_right changes List.mem_cons_self)
    have hrun : self.run (changes ++ [change]) = change.apply (self.run changes) :=
      List.foldl_concat ..
    rw [hrun, lastChange_concat]
    by_cases hname : change.flag.flagName = name
    · subst hname
      rw [mem_apply_self_iff _ change hlast, if_pos rfl]
      simp
    · rw [mem_apply_of_ne _ change hlast (Ne.symm hname), if_neg hname,
        ih fun c hc => h c (List.mem_append_left _ hc)]

/-- The wildcard was enabled last, or it was among the initial features and has not been called
upon since. -/
def WildcardInForce (self : FeatureFlags) (changes : List Change) : Prop :=
  lastChange "*" changes = some true ∨
    (lastChange "*" changes = none ∧ "*" ∈ self.getEnabledSet)

theorem isEnabled_iff (self : FeatureFlags) (flag : FlagArg) :
    self.isEnabled flag = true ↔
      "*" ∈ self.getEnabledSet ∨ flag.flagName ∈ self.getEnabledSet := by
  rw [isEnabled, Bool.or_eq_true, decide_eq_true_eq, decide_eq_true_eq]

/-- A flag that was enabled last is enabled; one that was disabled last is enabled exactly while
the wildcard is in force. -/
theorem isEnabled_run (self : FeatureFlags) (changes : List Change)
    (h : ∀ change ∈ changes, FlagName change.flag.flagName) (flag : FlagArg) :
    (lastChange flag.flagName changes = some true → (self.run changes).isEnabled flag = true) ∧
      (lastChange flag.flagName changes = some false →
        ((self.run changes).isEnabled flag = true ↔ self.WildcardInForce changes)) := by
  constructor
  · intro hlast
    exact (isEnabled_iff _ flag).mpr (.inr ((mem_run_iff self h _).mpr (.inl hlast)))
  · intro hlast
    have hnot : flag.flagName ∉ (self.run changes).getEnabledSet := by
      rw [mem_run_iff self h, hlast]
      simp
    rw [isEnabled_iff, or_iff_left hnot, mem_run_iff self h]
    rfl

theorem isEnabled_run_disabled :
    (run ⟨"a"⟩ [⟨sortedOrder, true, .name "b"⟩, ⟨sortedOrder, false, .name "a"⟩]).isEnabled
        (.name "a") = false ∧
      (run ⟨"a"⟩ [⟨sortedOrder, true, .name "b"⟩, ⟨sortedOrder, false, .name "a"⟩]).isEnabled
        (.name "b") = true := by
  have hnames : ∀ change ∈ [(⟨sortedOrder, true, .name "b"⟩ : Change),
      ⟨sortedOrder, false, .name "a"⟩], FlagName change.flag.flagName := by
    rintro change (_ | ⟨_, _ | ⟨_, ⟨⟩⟩⟩) <;> exact ⟨by decide, by decide, by decide⟩
  have hdisabled := (isEnabled_run ⟨"a"⟩ _ hnames (.name "a")).2 rfl
  refine ⟨?_, (isEnabled_run ⟨"a"⟩ _ hnames (.name "b")).1 rfl⟩
  rw [Bool.eq_false_iff, ne_eq, hdisabled]
  rintro (hstar | ⟨-, hstar⟩)
  · cases hstar
  · exact absurd hstar (by decide)

/-- With the wildcard among the initial features, a flag that was disabled is enabled. -/
theorem isEnabled_disabled :
    lastChange "kafka_events" [⟨sortedOrder, false, .flag .kafkaEvents⟩] = some false ∧
      (run ⟨"*"⟩ [⟨sortedOrder, false, .flag .kafkaEvents⟩]).isEnabled (.flag .kafkaEvents) =
        true := by
  refine ⟨rfl, (isEnabled_iff _ _).mpr (.inl ?_)⟩
  exact (mem_apply_of_ne ⟨"*"⟩ ⟨sortedOrder, false, .flag .kafkaEvents⟩
    (flagName_value .kafkaEvents) (by decide)).mpr (by decide)

end FeatureFlags

end RagEval.Core
