import RagEval.Evaluation.Metrics
import RagEval.Lib.Ratio

/-!
# Laws of the classification metrics

The loop of `confusion_counts` counts the pairs of labels in four cells; the metrics are ratios of
these, and what holds of ratios holds of them.

## Main definitions

- `confusion` — the cells of a list of pairs
- `summarize` — the summary of a list of pairs

## Main results

- `classificationSummary_eq` — the code computes the summary of the paired labels
- `precision_mem`, `recall_mem`, `accuracy_mem`, `f1_summarize` — the metrics as ratios
-/

namespace RagEval.Evaluation
open RagEval.Lib Ratio

theorem safeDivide_eq (numerator denominator : ℚ) :
    safeDivide numerator denominator = numerator / denominator := by
  unfold safeDivide
  split
  · rfl
  · next h => rw [not_not.mp h, div_zero]

/-! ## The four cells -/

section
variable (positiveLabel : String)

/-- The numbers of pairs by what they say of the positive label. -/
def confusion (pairs : List (String × String)) : ConfusionCounts where
  tp := pairs.countP fun pair => pair.2 = positiveLabel ∧ pair.1 = positiveLabel
  fp := pairs.countP fun pair => pair.2 = positiveLabel ∧ pair.1 ≠ positiveLabel
  tn := pairs.countP fun pair => pair.2 ≠ positiveLabel ∧ pair.1 ≠ positiveLabel
  fn := pairs.countP fun pair => pair.2 ≠ positiveLabel ∧ pair.1 = positiveLabel

theorem foldl_countPair (pairs : List (String × String)) :
    pairs.foldl (countPair positiveLabel) ⟨0, 0, 0, 0⟩ = confusion positiveLabel pairs := by
  induction pairs using List.reverseRecOn with
  | nil => rfl
  | append_singleton pairs pair ih =>
    rw [List.foldl_append, ih, List.foldl_cons, List.foldl_nil]
    simp only [confusion, countPair, List.countP_append, List.countP_singleton]
    by_cases hpredicted : pair.2 = positiveLabel
    · by_cases hactual : pair.1 = positiveLabel
      · simp [hpredicted, hactual]
      · simp [hpredicted, hactual]
    · by_cases hactual : pair.1 = positiveLabel
      · simp [hpredicted, hactual]
      · simp [hpredicted, hactual]

/-- The pairs that predict the positive label. -/
theorem tp_add_fp (pairs : List (String × String)) :
    (confusion positiveLabel pairs).tp + (confusion positiveLabel pairs).fp =
      (pairs.map Prod.snd).count positiveLabel := by
  rw [List.count, List.countP_map]
  exact countP_and_add (fun pair => pair.2 = positiveLabel) (fun pair => pair.1 = positiveLabel)
    pairs

/-- The pairs whose actual label is the positive one. -/
theorem tp_add_fn (pairs : List (String × String)) :
    (confusion positiveLabel pairs).tp + (confusion positiveLabel pairs).fn =
      (pairs.map Prod.fst).count positiveLabel := by
  rw [List.count, List.countP_map]
  simp only [confusion, and_comm]
  exact countP_and_add (fun pair => pair.1 = positiveLabel) (fun pair => pair.2 = positiveLabel)
    pairs

/-- Each pair falls into one cell. -/
theorem cells_add (pairs : List (String × String)) :
    (confusion positiveLabel pairs).tp + (confusion positiveLabel pairs).fp +
      (confusion positiveLabel pairs).tn + (confusion positiveLabel pairs).fn = pairs.length := by
  have hpredicted := countP_and_add (fun pair => pair.2 = positiveLabel)
    (fun pair => pair.1 = positiveLabel) pairs
  have hother := countP_and_add (fun pair => ¬pair.2 = positiveLabel)
    (fun pair => pair.1 = positiveLabel) pairs
  have hall := List.length_eq_countP_add_countP (fun pair => decide (pair.2 = positiveLabel))
    (l := pairs)
  simp only [decide_eq_true_eq] at hall
  simp only [confusion, ne_eq]
  omega

/-- Exchanging the labels of all pairs exchanges the two kinds of errors. -/
theorem confusion_swap (pairs : List (String × String)) :
    confusion positiveLabel (pairs.map Prod.swap) =
      ⟨(confusion positiveLabel pairs).tp, (confusion positiveLabel pairs).fn,
        (confusion positiveLabel pairs).tn, (confusion positiveLabel pairs).fp⟩ := by
  simp only [confusion, List.countP_map, Function.comp_def, Prod.fst_swap, Prod.snd_swap, and_comm]

theorem confusion_perm {pairs pairs' : List (String × String)} (h : pairs.Perm pairs') :
    confusion positiveLabel pairs = confusion positiveLabel pairs' := by
  simp only [confusion, h.countP_eq]

/-! ## The summary -/

/-- The number of pairs of equal labels. -/
def agreements (pairs : List (String × String)) : Nat := pairs.countP fun pair => pair.1 = pair.2

/-- The summary of paired labels. -/
def summarize (pairs : List (String × String)) : ClassificationSummary where
  toConfusionCounts := confusion positiveLabel pairs
  samples := pairs.length
  accuracy := agreements pairs / pairs.length
  precision := ratio (confusion positiveLabel pairs).tp (confusion positiveLabel pairs).fp
  «recall» := ratio (confusion positiveLabel pairs).tp (confusion positiveLabel pairs).fn
  f1 := harmonicMean (ratio (confusion positiveLabel pairs).tp (confusion positiveLabel pairs).fp)
    (ratio (confusion positiveLabel pairs).tp (confusion positiveLabel pairs).fn)

variable {positiveLabel}

theorem zipStrict_of_length_eq {xs ys : List String} (h : xs.length = ys.length) :
    zipStrict xs ys = .ok (xs.zip ys) := by
  rw [zipStrict, if_neg (by omega), if_neg (by omega)]

/-- **Refinement**: the code computes the summary of the paired labels. -/
theorem classificationSummary_eq {actual predicted : List String}
    (hlength : actual.length = predicted.length) (hne : actual ≠ []) :
    classificationSummary actual predicted positiveLabel =
      .ok (summarize positiveLabel (actual.zip predicted)) := by
  have hsamples : (actual.zip predicted).length = actual.length := by
    rw [List.length_zip, ← hlength, Nat.min_self]
  simp only [classificationSummary, confusionCounts, zipStrict_of_length_eq hlength, if_neg hne,
    hlength, ne_eq, not_true_eq_false, if_false, bind, Except.bind, pure, Except.pure,
    foldl_countPair, safeDivide_eq, summarize, agreements, ratio, harmonicMean, Nat.cast_add,
    hsamples]

/-- A true positive is an agreement, and an agreement is a true positive or a true negative. -/
theorem agreements_bounds (positiveLabel : String) (pairs : List (String × String)) :
    (confusion positiveLabel pairs).tp ≤ agreements pairs ∧
      agreements pairs ≤ (confusion positiveLabel pairs).tp + (confusion positiveLabel pairs).tn := by
  have hsplit := countP_and_add (fun pair : String × String => pair.1 = pair.2)
    (fun pair => pair.2 = positiveLabel) pairs
  have htrue : pairs.countP (fun pair => pair.1 = pair.2 ∧ pair.2 = positiveLabel) =
      (confusion positiveLabel pairs).tp := by
    refine List.countP_congr fun pair _ => ?_
    simp only [decide_eq_true_eq]
    constructor
    · rintro ⟨heq, hpositive⟩
      exact ⟨hpositive, heq.trans hpositive⟩
    · rintro ⟨hpredicted, hactual⟩
      exact ⟨hactual.trans hpredicted.symm, hpredicted⟩
  have hfalse : pairs.countP (fun pair => pair.1 = pair.2 ∧ ¬pair.2 = positiveLabel) ≤
      (confusion positiveLabel pairs).tn := by
    refine List.countP_mono_left fun pair _ h => ?_
    simp only [decide_eq_true_eq] at h ⊢
    exact ⟨h.2, h.1 ▸ h.2⟩
  unfold agreements
  omega

theorem accuracy_mul_samples {pairs : List (String × String)} (hne : pairs ≠ []) :
    (summarize positiveLabel pairs).accuracy * (summarize positiveLabel pairs).samples =
      agreements pairs := by
  have hlength : (pairs.length : ℚ) ≠ 0 := by
    rw [Nat.cast_ne_zero, ne_eq, List.length_eq_zero_iff]
    exact hne
  exact div_mul_cancel₀ _ hlength

theorem precision_mem (positiveLabel : String) (pairs : List (String × String)) :
    0 ≤ (summarize positiveLabel pairs).precision ∧
      (summarize positiveLabel pairs).precision ≤ 1 :=
  ratio_mem (Nat.cast_nonneg _) (Nat.cast_nonneg _)

theorem recall_mem (positiveLabel : String) (pairs : List (String × String)) :
    0 ≤ (summarize positiveLabel pairs).recall ∧ (summarize positiveLabel pairs).recall ≤ 1 :=
  ratio_mem (Nat.cast_nonneg _) (Nat.cast_nonneg _)

theorem accuracy_mem (pairs : List (String × String)) :
    0 ≤ (summarize positiveLabel pairs).accuracy ∧
      (summarize positiveLabel pairs).accuracy ≤ 1 := by
  have hle : (agreements pairs : ℚ) ≤ pairs.length := Nat.cast_le.mpr List.countP_le_length
  have hlength : (0 : ℚ) ≤ pairs.length := Nat.cast_nonneg _
  exact ⟨div_nonneg (Nat.cast_nonneg _) hlength, div_le_one_of_le₀ hle hlength⟩

/-- The closed form of the mean, which is zero without true positives. -/
theorem f1_summarize (pairs : List (String × String)) :
    let s := summarize positiveLabel pairs
    s.f1 = if 0 < s.tp then (2 * s.tp : ℚ) / (2 * s.tp + s.fp + s.fn) else 0 := by
  intro s
  split
  · next htp =>
    have hpart : (0 : ℚ) < s.tp := Nat.cast_pos.mpr htp
    exact harmonicMean_ratio hpart (Nat.cast_nonneg _) (Nat.cast_nonneg _)
  · next htp =>
    have hzero : (confusion positiveLabel pairs).tp = 0 := Nat.eq_zero_of_not_pos htp
    have hprecision : s.precision = 0 := by
      show ratio ((confusion positiveLabel pairs).tp : ℚ) _ = 0
      rw [hzero, Nat.cast_zero, ratio_zero_left]
    show harmonicMean s.precision s.recall = 0
    rw [hprecision, harmonicMean, mul_zero, zero_mul, zero_div]

theorem zip_ne_nil {actual predicted : List String} (hlength : actual.length = predicted.length)
    (hne : actual ≠ []) : actual.zip predicted ≠ [] := by
  rw [← List.length_pos_iff] at hne ⊢
  rw [List.length_zip]
  omega

/-- The bounds on a summary. -/
theorem classificationSummary_bounds (actual predicted : List String) (positiveLabel : String)
    (hlength : actual.length = predicted.length) (hne : actual ≠ []) :
    ∃ s, classificationSummary actual predicted positiveLabel = .ok s ∧
      (0 ≤ s.precision ∧ s.precision ≤ 1) ∧ (0 ≤ s.recall ∧ s.recall ≤ 1) ∧
      (0 ≤ s.f1 ∧ s.f1 ≤ 1) ∧ (0 ≤ s.accuracy ∧ s.accuracy ≤ 1) ∧
      (s.f1 = if 0 < s.tp then (2 * s.tp : ℚ) / (2 * s.tp + s.fp + s.fn) else 0) ∧
      min s.precision s.recall ≤ s.f1 ∧ s.f1 ≤ max s.precision s.recall ∧
      s.tp ≤ s.accuracy * s.samples ∧ s.accuracy * s.samples ≤ s.tp + s.tn := by
  have hprecision := precision_mem positiveLabel (actual.zip predicted)
  have hrecall := recall_mem positiveLabel (actual.zip predicted)
  obtain ⟨htrue, hagree⟩ := agreements_bounds positiveLabel (actual.zip predicted)
  refine ⟨_, classificationSummary_eq hlength hne, hprecision, hrecall,
    harmonicMean_mem hprecision hrecall, accuracy_mem _, f1_summarize _,
    min_le_harmonicMean hprecision.1 hrecall.1, harmonicMean_le_max hprecision.1 hrecall.1, ?_, ?_⟩
  · rw [accuracy_mul_samples (zip_ne_nil hlength hne)]
    exact Nat.cast_le.mpr htrue
  · rw [accuracy_mul_samples (zip_ne_nil hlength hne), ← Nat.cast_add]
    exact Nat.cast_le.mpr hagree

theorem classificationSummary_bounds_spam :
    ∃ s, classificationSummary ["spam", "ham", "spam"] ["spam", "spam", "ham"] "spam" = .ok s ∧
      (0 ≤ s.precision ∧ s.precision ≤ 1) ∧ (0 ≤ s.recall ∧ s.recall ≤ 1) ∧
      (0 ≤ s.f1 ∧ s.f1 ≤ 1) ∧ (0 ≤ s.accuracy ∧ s.accuracy ≤ 1) ∧
      (s.f1 = if 0 < s.tp then (2 * s.tp : ℚ) / (2 * s.tp + s.fp + s.fn) else 0) ∧
      min s.precision s.recall ≤ s.f1 ∧ s.f1 ≤ max s.precision s.recall ∧
      s.tp ≤ s.accuracy * s.samples ∧ s.accuracy * s.samples ≤ s.tp + s.tn :=
  classificationSummary_bounds ["spam", "ham", "spam"] ["spam", "spam", "ham"] "spam" rfl (by decide)

/-! ## Symmetries -/

/-- The summary with the roles of the lists exchanged. -/
def ClassificationSummary.exchanged (s : ClassificationSummary) : ClassificationSummary :=
  { s with precision := s.recall, «recall» := s.precision, fp := s.fn, fn := s.fp }

theorem agreements_swap (pairs : List (String × String)) :
    agreements (pairs.map Prod.swap) = agreements pairs := by
  simp only [agreements, List.countP_map, Function.comp_def, Prod.fst_swap, Prod.snd_swap, eq_comm]

theorem summarize_swap (pairs : List (String × String)) :
    summarize positiveLabel (pairs.map Prod.swap) =
      (summarize positiveLabel pairs).exchanged := by
  simp only [summarize, ClassificationSummary.exchanged, confusion_swap, agreements_swap,
    List.length_map, ClassificationSummary.mk.injEq, true_and]
  exact harmonicMean_comm _ _

theorem summarize_perm {pairs pairs' : List (String × String)} (h : pairs.Perm pairs') :
    summarize positiveLabel pairs = summarize positiveLabel pairs' := by
  simp only [summarize, agreements, confusion_perm positiveLabel h, h.countP_eq, h.length_eq]

/-- Exchanging the lists exchanges precision with recall and the two kinds of errors; what pairs
the labels the same way, in any order, has the same summary and the same distributions. -/
theorem classificationSummary_symmetries (actual predicted : List String) (positiveLabel : String)
    (hlength : actual.length = predicted.length) (hne : actual ≠ []) :
    (∃ s, classificationSummary actual predicted positiveLabel = .ok s ∧
      classificationSummary predicted actual positiveLabel = .ok s.exchanged) ∧
    ∀ actual' predicted', actual'.length = predicted'.length →
      (actual.zip predicted).Perm (actual'.zip predicted') →
      classificationSummary actual' predicted' positiveLabel =
          classificationSummary actual predicted positiveLabel ∧
        ∀ label, (classDistribution actual').get? label = (classDistribution actual).get? label ∧
          (classDistribution predicted').get? label = (classDistribution predicted).get? label := by
  refine ⟨⟨_, classificationSummary_eq hlength hne, ?_⟩, ?_⟩
  · have hpredicted : predicted ≠ [] := by
      rw [← List.length_pos_iff, ← hlength, List.length_pos_iff]
      exact hne
    rw [classificationSummary_eq hlength.symm hpredicted, ← List.zip_swap, summarize_swap]
  · intro actual' predicted' hlength' hperm
    -- a pairing of equally long lists has them as its components
    have hactual : actual.Perm actual' := by
      have hfst := hperm.map Prod.fst
      rwa [List.map_fst_zip hlength.le, List.map_fst_zip hlength'.le] at hfst
    have hpredicted : predicted.Perm predicted' := by
      have hsnd := hperm.map Prod.snd
      rwa [List.map_snd_zip hlength.ge, List.map_snd_zip hlength'.ge] at hsnd
    have hne' : actual' ≠ [] := by
      rw [← List.length_pos_iff, ← hactual.length_eq, List.length_pos_iff]
      exact hne
    refine ⟨?_, fun label => ⟨?_, ?_⟩⟩
    · rw [classificationSummary_eq hlength hne, classificationSummary_eq hlength' hne',
        summarize_perm hperm]
    · exact (get?_counter_perm hactual label).symm
    · exact (get?_counter_perm hpredicted label).symm

theorem classificationSummary_symmetries_spam :
    ∃ s, classificationSummary ["spam", "ham", "spam"] ["spam", "spam", "eggs"] "spam" = .ok s ∧
      classificationSummary ["spam", "spam", "eggs"] ["spam", "ham", "spam"] "spam" =
        .ok s.exchanged ∧
      classificationSummary ["ham", "spam", "spam"] ["spam", "eggs", "spam"] "spam" = .ok s := by
  obtain ⟨⟨s, hs, hswap⟩, hperm⟩ := classificationSummary_symmetries ["spam", "ham", "spam"]
    ["spam", "spam", "eggs"] "spam" rfl (by decide)
  exact ⟨s, hs, hswap, (hperm ["ham", "spam", "spam"] ["spam", "eggs", "spam"] rfl
    (by decide)).1.trans hs⟩

/-! ## The parts of a result -/

theorem evaluateClassification_eq (events : List BusEvent) {actual predicted : List String}
    (hlength : actual.length = predicted.length) (hne : actual ≠ []) :
    evaluateClassification events actual predicted positiveLabel =
      .ok (⟨summarize positiveLabel (actual.zip predicted), classDistribution actual,
          classDistribution predicted⟩,
        events ++ [classificationCompleted (summarize positiveLabel (actual.zip predicted))
          positiveLabel]) := by
  rw [evaluateClassification, classificationSummary_eq hlength hne]
  rfl

/-- The parts of a result agree with one another. -/
theorem evaluateClassification_marginals (events : List BusEvent) (actual predicted : List String)
    (positiveLabel : String) (hlength : actual.length = predicted.length) (hne : actual ≠ []) :
    ∃ result events', evaluateClassification events actual predicted positiveLabel =
        .ok (result, events') ∧
      result.summary.tp + result.summary.fp + result.summary.tn + result.summary.fn =
        result.summary.samples ∧
      result.actualDistribution.values.sum = result.summary.samples ∧
      result.predictedDistribution.values.sum = result.summary.samples ∧
      result.actualDistribution.getD positiveLabel 0 = result.summary.tp + result.summary.fn ∧
      result.predictedDistribution.getD positiveLabel 0 =
        result.summary.tp + result.summary.fp := by
  have hsamples : (actual.zip predicted).length = actual.length := by
    rw [List.length_zip, ← hlength, Nat.min_self]
  refine ⟨_, _, evaluateClassification_eq events hlength hne, cells_add positiveLabel _,
    ?_, ?_, ?_, ?_⟩
  · exact (sum_values_counter actual).trans hsamples.symm
  · exact (sum_values_counter predicted).trans (hlength.symm.trans hsamples.symm)
  · have hactual := tp_add_fn positiveLabel (actual.zip predicted)
    rw [List.map_fst_zip hlength.le] at hactual
    exact (getD_counter actual positiveLabel).trans hactual.symm
  · have hpredicted := tp_add_fp positiveLabel (actual.zip predicted)
    rw [List.map_snd_zip hlength.ge] at hpredicted
    exact (getD_counter predicted positiveLabel).trans hpredicted.symm

/-- Two mails found, one missed, one suspected and one let through. -/
theorem evaluateClassification_marginals_spam :
    ∃ result events', evaluateClassification [] ["spam", "ham", "spam", "ham", "spam"]
        ["spam", "spam", "ham", "ham", "spam"] "spam" = .ok (result, events') ∧
      result.summary.tp + result.summary.fp + result.summary.tn + result.summary.fn =
        result.summary.samples ∧
      result.actualDistribution.values.sum = result.summary.samples ∧
      result.predictedDistribution.values.sum = result.summary.samples ∧
      result.actualDistribution.getD "spam" 0 = result.summary.tp + result.summary.fn ∧
      result.predictedDistribution.getD "spam" 0 = result.summary.tp + result.summary.fp :=
  evaluateClassification_marginals [] ["spam", "ham", "spam", "ham", "spam"]
    ["spam", "spam", "ham", "ham", "spam"] "spam" rfl (by decide)

end

end RagEval.Evaluation
