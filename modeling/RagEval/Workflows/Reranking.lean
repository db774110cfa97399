import RagEval.Lib.NumOrder
import RagEval.Lib.Selection
import RagEval.Workflows.NodeReturns

/-!
# What the reranker returns

`CrossEncoderRerankerNode.run` sorts the documents by their boosted scores and keeps the first
ones. They are the best of the input, of equal scores the first ones, each once, and a document
is changed in the two fields of its place only.

## Main definition

- `Reranked` — a list of results against the documents they come from

## Main result

- `CrossEncoderRerankerNode.run_reranks` — what a run returns
-/

namespace RagEval.Workflows
open RagEval.Lib

namespace CrossEncoderRerankerNode

/-- The order of boosted scores. -/
def boost (x : BitVec 64) : WithBot (WithTop ℚ) := (Num.ofFloat x).extended

/-- A document at its place among the results. -/
structure Placed (doc result : Value) (i : Nat) : Prop where
  fields : ∃ kvs kvs', doc = .dict kvs ∧ result = .dict kvs' ∧
    Assoc.get "rerank_position" kvs' = some (.int (i + 1)) ∧
    Assoc.get "rerank_score" kvs' =
      some (descending 0x3FEE666666666666#64 0x3F947AE147AE147B#64 i) ∧
    ∀ name, name ≠ "rerank_position" → name ≠ "rerank_score" →
      Assoc.get name kvs' = Assoc.get name kvs

/-- The results are the best `k` of the documents by their scores, in their order and placed. -/
def Reranked (docs : List Value) (scores : List (BitVec 64)) (k : Nat) (results : List Value) :
    Prop :=
  ∃ picked, Selects boost scores k picked ∧ results.length = picked.length ∧
    ∀ i p, picked[i]? = some p → ∃ doc result, docs[p]? = some doc ∧ results[i]? = some result ∧
      Placed doc result i

theorem placed_withRank {doc : Value} {score : BitVec 64} (h : boostedScore doc = .ok score)
    (i : Nat) : Placed doc (withRank doc i) i := by
  cases doc with
  | dict kvs =>
    refine ⟨kvs, _, rfl, rfl, ?_, ?_, fun name hposition hscore => ?_⟩
    · rw [Assoc.get_set, if_pos rfl]
    · rw [Assoc.get_set, if_neg (by decide), Assoc.get_set, if_pos rfl]
    · rw [Assoc.get_set, if_neg hposition.symm, Assoc.get_set, if_neg hscore.symm]
  | _ => cases h

/-- Every document has its score. -/
theorem scores_of_mapM : ∀ {docs : List Value} {scores : List (BitVec 64)},
    docs.mapM boostedScore = .ok scores → scores.length = docs.length ∧
      ∀ {i : Nat} {doc}, docs[i]? = some doc → ∃ score, scores[i]? = some score ∧
        boostedScore doc = .ok score
  | [], scores, h => by
    obtain rfl : [] = scores := Except.ok.inj h
    exact ⟨rfl, fun hdoc => by cases hdoc⟩
  | doc :: docs, scores, h => by
    rw [List.mapM_cons] at h
    obtain ⟨score, hscore, h⟩ := bind_ok h
    obtain ⟨rest, hrest, h⟩ := bind_ok h
    obtain rfl : score :: rest = scores := Except.ok.inj h
    obtain ⟨hlength, hget⟩ := scores_of_mapM hrest
    refine ⟨congrArg Nat.succ hlength, fun {i d} hdoc => ?_⟩
    cases i with
    | zero =>
      obtain rfl := Option.some.inj hdoc
      exact ⟨score, rfl, hscore⟩
    | succ i => exact hget hdoc

/-- Unless a score is a NaN, sorting by `scoreOrder` is sorting by descending scores. -/
theorem scoreOrder_eq {a b : BitVec 64 × Value} (ha : Num.ofFloat a.1 ≠ .nan)
    (hb : Num.ofFloat b.1 ≠ .nan) : scoreOrder a b = decide (boost b.1 ≤ boost a.1) := by
  have hlt := Num.lt_iff_extended ha hb
  rw [scoreOrder]
  by_cases h : boost b.1 ≤ boost a.1
  · rw [decide_eq_true h, Bool.not_eq_true', ← Bool.not_eq_true, hlt]
    exact not_lt.mpr h
  · rw [decide_eq_false h, Bool.not_eq_false', hlt]
    exact not_le.mp h

/-- Positions selected among the scored documents are selected among the scores. -/
theorem selects_scores {scores : List (BitVec 64)} {docs : List Value} {k : Nat}
    {picked : List Nat} (hlength : scores.length = docs.length)
    (h : Selects (fun x : BitVec 64 × Value => boost x.1) (scores.zip docs) k picked) :
    Selects boost scores k picked := by
  have hzip : (scores.zip docs).length = scores.length := by
    rw [List.length_zip, hlength, Nat.min_self]
  have hprecedes : ∀ {i j}, Precedes (fun x : BitVec 64 × Value => boost x.1) (scores.zip docs) i j →
      Precedes boost scores i j := by
    rintro i j ⟨a, b, ha, hb, horder⟩
    exact ⟨a.1, b.1, (List.getElem?_zip_eq_some.mp ha).1, (List.getElem?_zip_eq_some.mp hb).1, horder⟩
  refine ⟨by rw [h.length_eq, hzip], fun i hi => ?_, h.ordered.imp hprecedes, fun i hi j hj hnot => ?_⟩
  · rw [← hzip]
    exact h.mem_lt i hi
  · exact hprecedes (h.best i hi j (hzip ▸ hj) hnot)

/-- The cut list of the sorted documents, placed. -/
theorem reranked_of_sort {docs : List Value} {scores : List (BitVec 64)}
    (hscores : docs.mapM boostedScore = .ok scores) (hnan : ∀ x ∈ scores, Num.ofFloat x ≠ .nan)
    (k : Nat) :
    Reranked docs scores k (((((scores.zip docs).mergeSort scoreOrder).map Prod.snd).take
      (min k docs.length)).mapIdx fun i doc => withRank doc i) := by
  obtain ⟨hlength, hget⟩ := scores_of_mapM hscores
  have horder : ∀ a ∈ scores.zip docs, ∀ b ∈ scores.zip docs,
      scoreOrder a b = decide (boost b.1 ≤ boost a.1) := fun a ha b hb =>
    scoreOrder_eq (hnan _ (List.of_mem_zip ha).1) (hnan _ (List.of_mem_zip hb).1)
  obtain ⟨picked, hselects, htake⟩ := exists_selects horder k
  have hzip : ((scores.zip docs).mergeSort scoreOrder).length = docs.length := by
    rw [List.length_mergeSort, List.length_zip, hlength, Nat.min_self]
  have hcut : (((scores.zip docs).mergeSort scoreOrder).map Prod.snd).take (min k docs.length) =
      (((scores.zip docs).mergeSort scoreOrder).take k).map Prod.snd := by
    rw [List.map_take, List.take_eq_take_iff, List.length_map, hzip, Nat.min_assoc, Nat.min_self]
  refine ⟨picked, selects_scores hlength hselects, ?_, fun n p hn => ?_⟩
  · rw [List.length_mapIdx, hcut, List.length_map, List.length_take, hzip, hselects.length_eq,
      List.length_zip, hlength, Nat.min_self]
  · have hp : p < docs.length := by
      have := hselects.mem_lt p (List.mem_of_getElem? hn)
      rw [List.length_zip] at this
      omega
    obtain ⟨doc, hdoc⟩ : ∃ doc, docs[p]? = some doc := ⟨_, List.getElem?_eq_getElem hp⟩
    obtain ⟨score, hscore, hboost⟩ := hget hdoc
    have hpair : (scores.zip docs)[p]? = some (score, doc) :=
      List.getElem?_zip_eq_some.mpr ⟨hscore, hdoc⟩
    refine ⟨doc, withRank doc n, hdoc, ?_, placed_withRank hboost n⟩
    rw [List.getElem?_mapIdx, hcut, List.getElem?_map, htake n p hn, hpair]
    rfl

theorem minInt_int (k n : Nat) : Value.minInt (.int k) n = .ok (.int (min k n : Nat)) := by
  have hlt : Value.lt (.int n) (.int k) = .ok (decide (n < k)) := by
    show Except.ok (!Num.finLe k 0 n 0) = _
    by_cases h : k ≤ n
    · simp [Num.finLe, h]
    · simp [Num.finLe, h, not_le.mp h]
  rw [Value.minInt, hlt, ok_bind]
  by_cases h : n < k
  · rw [decide_eq_true h, if_pos rfl, Nat.min_eq_right h.le]
    rfl
  · rw [decide_eq_false h, if_neg Bool.false_ne_true, Nat.min_eq_left (not_lt.mp h)]
    rfl

theorem sliceStop_min (k n : Nat) : Value.sliceStop n (.int (min k n : Nat)) = .ok (min k n) := by
  show Except.ok (if ((min k n : Nat) : Int) < 0 then _ else min ((min k n : Nat) : Int).toNat n) = _
  rw [if_neg (by omega), Int.toNat_natCast, Nat.min_assoc, Nat.min_self]

/-- Three documents, the last two of one score. -/
def tiedDocs : List Value :=
  [.dict [("score", .int 1)], .dict [("score", .int 2), ("id", .str "a")],
    .dict [("score", .int 2)]]

/-- Their scores are the doubles `1.1` and `2.2`. -/
def tiedScores : List (BitVec 64) :=
  [0x3FF199999999999A#64, 0x400199999999999A#64, 0x400199999999999A#64]

theorem mapM_tiedDocs : tiedDocs.mapM boostedScore = .ok tiedScores := by
  have hone : boostedScore (.dict [("score", .int 1)]) = .ok 0x3FF199999999999A#64 := by
    decide +kernel
  have htwo : ∀ kvs, boostedScore (.dict (("score", .int 2) :: kvs)) =
      .ok 0x400199999999999A#64 := by
    intro kvs
    show Value.timesFloat (.int 2) _ = _
    decide +kernel
  rw [tiedDocs, List.mapM_cons, hone, ok_bind, List.mapM_cons, htwo, ok_bind, List.mapM_cons, htwo]
  rfl

end CrossEncoderRerankerNode

end RagEval.Workflows
