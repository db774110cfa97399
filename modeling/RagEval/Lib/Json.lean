import Mathlib.Data.List.Perm.Subperm
import Mathlib.Data.List.Sort
import Mathlib.Data.String.Basic
import RagEval.Lib.Dict
import RagEval.Lib.JsonText

/-!
# Canonical JSON

`json.dumps(..., sort_keys=True, separators=(",", ":"))`, and when it gives two values one
text: exactly when they are the same value but for the order of the keys of their dicts.

## Main definitions

- `dumps` — the canonical text
- `Same` — equality of values regardless of the order of keys

## Main result

- `dumps_eq_iff` — equal texts are those of the same value
-/

namespace RagEval.Lib.Json

mutual
/-- The value with the items of every dict in the order of their keys. -/
def sortKeys : Value → Value
  | .none => .none
  | .bool b => .bool b
  | .int i => .int i
  | .float x => .float x
  | .str s => .str s
  | .list vs => .list (sortKeysList vs)
  | .dict kvs => .dict ((sortKeysItems kvs).insertionSort fun a b => a.1 ≤ b.1)

def sortKeysList : List Value → List Value
  | [] => []
  | v :: vs => sortKeys v :: sortKeysList vs

def sortKeysItems : List (String × Value) → List (String × Value)
  | [] => []
  | (k, v) :: kvs => (k, sortKeys v) :: sortKeysItems kvs
end

/-- `json.dumps(v, sort_keys=True, separators=(",", ":"))`. -/
def dumps (v : Value) : String := String.ofList (printValue (sortKeys v))

mutual
/-- The keys of every dict are distinct, as the keys of a Python dict always are. -/
def DistinctKeys : Value → Prop
  | .list vs => DistinctKeysList vs
  | .dict kvs => (kvs.map Prod.fst).Nodup ∧ DistinctKeysItems kvs
  | .none | .bool _ | .int _ | .float _ | .str _ => True

def DistinctKeysList : List Value → Prop
  | [] => True
  | v :: vs => DistinctKeys v ∧ DistinctKeysList vs

def DistinctKeysItems : List (String × Value) → Prop
  | [] => True
  | (_, v) :: kvs => DistinctKeys v ∧ DistinctKeysItems kvs
end

mutual
/-- The same value: dicts have the same keys with the same values under them, in any order;
floats have the same bits, all NaNs being one. -/
def Same : Value → Value → Prop
  | .none, w => w = .none
  | .bool b, w => w = .bool b
  | .int i, w => w = .int i
  | .float x, w => ∃ y, w = .float y ∧ (x = y ∨ Num.ofFloat x = .nan ∧ Num.ofFloat y = .nan)
  | .str s, w => w = .str s
  | .list vs, w => ∃ ws, w = .list ws ∧ SameList vs ws
  | .dict kvs, w => ∃ kws, w = .dict kws ∧ kvs.length = kws.length ∧ SameItems kvs kws

def SameList : List Value → List Value → Prop
  | [], ws => ws = []
  | v :: vs, ws => ∃ w ws', ws = w :: ws' ∧ Same v w ∧ SameList vs ws'

/-- Each of the items is one of the others. -/
def SameItems : List (String × Value) → List (String × Value) → Prop
  | [], _ => True
  | (k, v) :: kvs, kws => (∃ w, (k, w) ∈ kws ∧ Same v w) ∧ SameItems kvs kws
end

/-! ## Sorted keys -/

theorem sortKeysItems_eq_map (kvs : List (String × Value)) :
    sortKeysItems kvs = kvs.map fun kv => (kv.1, sortKeys kv.2) := by
  induction kvs with
  | nil => rfl
  | cons kv kvs ih => rw [sortKeysItems, ih, List.map_cons]

theorem unifyNaNsItems_eq_map (kvs : List (String × Value)) :
    unifyNaNsItems kvs = kvs.map fun kv => (kv.1, unifyNaNs kv.2) := by
  induction kvs with
  | nil => rfl
  | cons kv kvs ih => rw [unifyNaNsItems, ih, List.map_cons]

/-- Two lists of distinct keys sort alike when they hold the same items. -/
theorem insertionSort_eq_iff {α : Type} {kvs : List (String × α)}
    (hkvs : (kvs.map Prod.fst).Nodup) (kws : List (String × α)) :
    kvs.insertionSort (fun a b => a.1 ≤ b.1) = kws.insertionSort (fun a b => a.1 ≤ b.1) ↔
      kvs.length = kws.length ∧ kvs ⊆ kws := by
  let le : String × α → String × α → Prop := fun a b => a.1 ≤ b.1
  have htotal : Std.Total le := ⟨fun a b => le_total a.1 b.1⟩
  have htrans : IsTrans (String × α) le := ⟨fun _ _ _ => le_trans⟩
  constructor
  · intro h
    have hperm : kvs.Perm kws :=
      (List.perm_insertionSort le kvs).symm.trans (h ▸ List.perm_insertionSort le kws)
    exact ⟨hperm.length_eq, hperm.subset⟩
  · rintro ⟨hlength, hsubset⟩
    have hperm : kvs.Perm kws :=
      (hkvs.of_map _ |>.subperm hsubset).perm_of_length_le hlength.ge
    have hsorted : (kvs.insertionSort le).Perm (kws.insertionSort le) :=
      (List.perm_insertionSort le kvs).trans (hperm.trans (List.perm_insertionSort le kws).symm)
    refine List.Perm.eq_of_pairwise ?_ (List.pairwise_insertionSort le kvs)
      (List.pairwise_insertionSort le kws) hsorted
    intro a b ha hb hab hba
    -- two items of one key are one, as the keys are distinct
    have ha : a ∈ kvs := (List.mem_insertionSort le).mp ha
    have hb : b ∈ kvs := hperm.mem_iff.mpr ((List.mem_insertionSort le).mp hb)
    exact List.inj_on_of_nodup_map hkvs ha hb (le_antisymm hab hba)

mutual
theorem unifyNaNs_sortKeys : ∀ v : Value, unifyNaNs (sortKeys v) = sortKeys (unifyNaNs v)
  | .none | .bool _ | .int _ | .float _ | .str _ => rfl
  | .list vs => congrArg Value.list (unifyNaNsList_sortKeysList vs)
  | .dict kvs => by
    show Value.dict (unifyNaNsItems (List.insertionSort _ (sortKeysItems kvs))) =
      Value.dict (List.insertionSort _ (sortKeysItems (unifyNaNsItems kvs)))
    rw [← unifyNaNsItems_sortKeysItems kvs, unifyNaNsItems_eq_map, unifyNaNsItems_eq_map]
    exact congrArg Value.dict (List.map_insertionSort _ _ _ _ fun _ _ _ _ => Iff.rfl)

theorem unifyNaNsList_sortKeysList : ∀ vs : List Value,
    unifyNaNsList (sortKeysList vs) = sortKeysList (unifyNaNsList vs)
  | [] => rfl
  | v :: vs => congrArg₂ List.cons (unifyNaNs_sortKeys v) (unifyNaNsList_sortKeysList vs)

theorem unifyNaNsItems_sortKeysItems : ∀ kvs : List (String × Value),
    unifyNaNsItems (sortKeysItems kvs) = sortKeysItems (unifyNaNsItems kvs)
  | [] => rfl
  | (k, v) :: kvs => congrArg₂ List.cons (congrArg (Prod.mk k) (unifyNaNs_sortKeys v))
      (unifyNaNsItems_sortKeysItems kvs)
end

theorem keys_sortKeysItems_unifyNaNsItems (kvs : List (String × Value)) :
    (sortKeysItems (unifyNaNsItems kvs)).map Prod.fst = kvs.map Prod.fst := by
  rw [unifyNaNsItems_eq_map, sortKeysItems_eq_map, List.map_map, List.map_map]
  rfl

theorem unifyNaN_eq_iff (x y : BitVec 64) :
    unifyNaN x = unifyNaN y ↔ x = y ∨ Num.ofFloat x = .nan ∧ Num.ofFloat y = .nan := by
  have hquiet : Num.ofFloat quietNaN = .nan := by decide
  unfold unifyNaN
  split
  · next hx =>
    split
    · next hy => simp [hx, hy]
    · next hy =>
      simp only [hy, and_false, or_false]
      exact ⟨fun h => absurd (h ▸ hquiet) hy, fun h => absurd (h ▸ hx) hy⟩
  · next hx =>
    simp only [hx, false_and, or_false]
    split
    · next hy => exact ⟨fun h => absurd (h ▸ hquiet) hx, fun h => absurd (h ▸ hy) hx⟩
    · exact Iff.rfl

theorem mem_canonicalItems_iff {kvs : List (String × Value)} {k : String} {c : Value} :
    (k, c) ∈ sortKeysItems (unifyNaNsItems kvs) ↔
      ∃ v, (k, v) ∈ kvs ∧ sortKeys (unifyNaNs v) = c := by
  rw [unifyNaNsItems_eq_map, sortKeysItems_eq_map, List.map_map]
  simp [List.mem_map]

theorem distinctKeys_of_mem {kvs : List (String × Value)} (h : DistinctKeysItems kvs) {k : String}
    {v : Value} (hmem : (k, v) ∈ kvs) : DistinctKeys v := by
  induction kvs with
  | nil => cases hmem
  | cons kv kvs ih =>
    obtain heq | hmem := List.mem_cons.mp hmem
    · rw [← heq] at h
      exact h.1
    · exact ih h.2 hmem

mutual
/-- Values are the same exactly when they are equal once their keys are sorted and their
NaNs are one. -/
theorem same_iff : ∀ {v w : Value}, DistinctKeys v → DistinctKeys w →
    (Same v w ↔ sortKeys (unifyNaNs v) = sortKeys (unifyNaNs w))
  | .none, w, _, _ => by cases w <;> simp [Same, sortKeys, unifyNaNs]
  | .bool b, w, _, _ => by cases w <;> simp [Same, sortKeys, unifyNaNs, eq_comm]
  | .int i, w, _, _ => by cases w <;> simp [Same, sortKeys, unifyNaNs, eq_comm]
  | .float x, w, _, _ => by cases w <;> simp [Same, sortKeys, unifyNaNs, unifyNaN_eq_iff]
  | .str s, w, _, _ => by cases w <;> simp [Same, sortKeys, unifyNaNs, eq_comm]
  | .list vs, w, hv, hw => by
    cases w with
    | list ws =>
      have hlist : SameList vs ws ↔
          sortKeysList (unifyNaNsList vs) = sortKeysList (unifyNaNsList ws) := sameList_iff hv hw
      simpa [Same, sortKeys, unifyNaNs] using hlist
    | _ => simp [Same, sortKeys, unifyNaNs]
  | .dict kvs, w, hv, hw => by
    cases w with
    | dict kws =>
      have hnodup := keys_sortKeysItems_unifyNaNsItems kvs ▸ hv.1
      have hlength : ∀ kvs, (sortKeysItems (unifyNaNsItems kvs)).length = kvs.length := by
        intro kvs
        rw [unifyNaNsItems_eq_map, sortKeysItems_eq_map, List.length_map, List.length_map]
      -- sorted by distinct keys, two dicts of one length are equal when one is part of the other
      have hsort := insertionSort_eq_iff hnodup (sortKeysItems (unifyNaNsItems kws))
      rw [hlength, hlength, ← sameItems_iff hv.2 hw.2] at hsort
      simpa [Same, sortKeys, unifyNaNs] using hsort.symm
    | _ => simp [Same, sortKeys, unifyNaNs]

theorem sameList_iff : ∀ {vs ws : List Value}, DistinctKeysList vs → DistinctKeysList ws →
    (SameList vs ws ↔ sortKeysList (unifyNaNsList vs) = sortKeysList (unifyNaNsList ws))
  | [], ws, _, _ => by cases ws <;> simp [SameList, sortKeysList, unifyNaNsList]
  | v :: vs, ws, hv, hw => by
    cases ws with
    | nil => simp [SameList, sortKeysList, unifyNaNsList]
    | cons w ws =>
      simp [SameList, sortKeysList, unifyNaNsList, same_iff hv.1 hw.1, sameList_iff hv.2 hw.2]

theorem sameItems_iff : ∀ {kvs kws : List (String × Value)}, DistinctKeysItems kvs →
    DistinctKeysItems kws → (SameItems kvs kws ↔
      sortKeysItems (unifyNaNsItems kvs) ⊆ sortKeysItems (unifyNaNsItems kws))
  | [], _, _, _ => by simp [SameItems, sortKeysItems, unifyNaNsItems]
  | (k, v) :: kvs, kws, hv, hw => by
    have hhead : (∃ w, (k, w) ∈ kws ∧ Same v w) ↔
        (k, sortKeys (unifyNaNs v)) ∈ sortKeysItems (unifyNaNsItems kws) := by
      rw [mem_canonicalItems_iff]
      refine exists_congr fun w => and_congr_right fun hmem => ?_
      rw [same_iff hv.1 (distinctKeys_of_mem hw hmem), eq_comm]
    show (_ ∧ SameItems kvs kws) ↔ _ :: sortKeysItems (unifyNaNsItems kvs) ⊆ _
    rw [hhead, sameItems_iff hv.2 hw, List.cons_subset]
end

/-! ## Dicts -/

theorem sameItems_iff_forall {kvs kws : List (String × Value)} :
    SameItems kvs kws ↔ ∀ kv ∈ kvs, ∃ w, (kv.1, w) ∈ kws ∧ Same kv.2 w := by
  induction kvs with
  | nil => simp [SameItems]
  | cons kv kvs ih => simp [SameItems, ih]

/-- As many items, each with a partner of its key: the keys are the same. -/
theorem perm_keys_of_partners {kvs kws : List (String × Value)} (hkvs : (kvs.map Prod.fst).Nodup)
    (hlength : kvs.length = kws.length) (hitems : ∀ kv ∈ kvs, ∃ w, (kv.1, w) ∈ kws ∧ Same kv.2 w) :
    (kvs.map Prod.fst).Perm (kws.map Prod.fst) := by
  have hkeys : kvs.map Prod.fst ⊆ kws.map Prod.fst := by
    intro key hkey
    obtain ⟨kv, hkv, rfl⟩ := List.mem_map.mp hkey
    obtain ⟨w, hw, -⟩ := hitems kv hkv
    exact List.mem_map.mpr ⟨_, hw, rfl⟩
  exact (hkvs.subperm hkeys).perm_of_length_le (by simp [hlength])

/-- Lookups related under every key find something under the same keys. -/
theorem perm_keys_of_rel {kvs kws : List (String × Value)} {R : Value → Value → Prop}
    (hkvs : (kvs.map Prod.fst).Nodup) (hkws : (kws.map Prod.fst).Nodup)
    (h : ∀ k, Option.Rel R (Assoc.get k kvs) (Assoc.get k kws)) :
    (kvs.map Prod.fst).Perm (kws.map Prod.fst) := by
  refine (List.perm_ext_iff_of_nodup hkvs hkws).mpr fun k => ?_
  have hk := h k
  rw [← not_iff_not, ← Assoc.get_eq_none_iff, ← Assoc.get_eq_none_iff]
  cases hget : Assoc.get k kvs <;> cases hget' : Assoc.get k kws <;>
    rw [hget, hget'] at hk <;> simp at hk ⊢

/-- Dicts are the same when each key is in both or in neither, with the same value. -/
theorem same_dict_iff {kvs kws : List (String × Value)} (hkvs : (kvs.map Prod.fst).Nodup)
    (hkws : (kws.map Prod.fst).Nodup) :
    Same (.dict kvs) (.dict kws) ↔
      ∀ k, Option.Rel Same (Assoc.get k kvs) (Assoc.get k kws) := by
  have hsame : Same (.dict kvs) (.dict kws) ↔
      kvs.length = kws.length ∧ ∀ kv ∈ kvs, ∃ w, (kv.1, w) ∈ kws ∧ Same kv.2 w := by
    simp [Same, sameItems_iff_forall]
  rw [hsame]
  constructor
  · rintro ⟨hlength, hitems⟩ k
    have hperm := perm_keys_of_partners hkvs hlength hitems
    cases hget : Assoc.get k kvs with
    | none =>
      have hnot := (Assoc.get_eq_none_iff k kvs).mp hget
      rw [(Assoc.get_eq_none_iff k kws).mpr fun h => hnot (hperm.mem_iff.mpr h)]
      exact .none
    | some v =>
      obtain ⟨w, hw, hvw⟩ := hitems _ (Assoc.mem_of_get_eq_some hget)
      rw [Assoc.get_eq_some_of_mem hkws hw]
      exact .some hvw
  · intro h
    refine ⟨by simpa using (perm_keys_of_rel hkvs hkws h).length_eq, ?_⟩
    rintro ⟨k, v⟩ hkv
    have hk := h k
    rw [Assoc.get_eq_some_of_mem hkvs hkv] at hk
    cases hget : Assoc.get k kws with
    | none => rw [hget] at hk; cases hk
    | some w =>
      rw [hget] at hk
      cases hk with
      | some hvw => exact ⟨w, Assoc.mem_of_get_eq_some hget, hvw⟩

/-- An item of its own key is compared apart from the others. -/
theorem rel_get_cons_iff {R : Value → Value → Prop} {k : String} {v w : Value}
    {kvs kws : List (String × Value)} (hkvs : k ∉ kvs.map Prod.fst) (hkws : k ∉ kws.map Prod.fst) :
    (∀ k', Option.Rel R (Assoc.get k' ((k, v) :: kvs)) (Assoc.get k' ((k, w) :: kws))) ↔
      R v w ∧ ∀ k', Option.Rel R (Assoc.get k' kvs) (Assoc.get k' kws) := by
  constructor
  · intro h
    have hk := h k
    simp only [Assoc.get, if_true] at hk
    refine ⟨by cases hk with | some hvw => exact hvw, fun k' => ?_⟩
    by_cases heq : k = k'
    · rw [← heq, (Assoc.get_eq_none_iff _ _).mpr hkvs, (Assoc.get_eq_none_iff _ _).mpr hkws]
      exact .none
    · have hk' := h k'
      simpa only [Assoc.get, if_neg heq] using hk'
  · rintro ⟨hvw, h⟩ k'
    simp only [Assoc.get]
    split
    · exact .some hvw
    · exact h k'

/-- Dicts with the same keys in the same order are the same item by item. -/
theorem same_record_iff {kvs kws : List (String × Value)} (hkeys : kvs.map Prod.fst = kws.map Prod.fst)
    (hnodup : (kvs.map Prod.fst).Nodup) :
    Same (.dict kvs) (.dict kws) ↔ List.Forall₂ (fun kv kw => Same kv.2 kw.2) kvs kws := by
  rw [same_dict_iff hnodup (hkeys ▸ hnodup)]
  induction kvs generalizing kws with
  | nil =>
    cases kws with
    | nil => simp [Assoc.get]
    | cons kw kws => cases hkeys
  | cons kv kvs ih =>
    cases kws with
    | nil => cases hkeys
    | cons kw kws =>
      obtain ⟨k, v⟩ := kv
      obtain ⟨l, w⟩ := kw
      rw [List.map_cons, List.map_cons, List.cons.injEq] at hkeys
      obtain ⟨rfl, hkeys⟩ := hkeys
      rw [List.map_cons, List.nodup_cons] at hnodup
      rw [List.forall₂_cons, ← ih hkeys hnodup.2]
      apply rel_get_cons_iff hnodup.1
      exact hkeys ▸ hnodup.1

/-- Two values have one canonical text exactly when they are the same. -/
theorem dumps_eq_iff {v w : Value} (hv : DistinctKeys v) (hw : DistinctKeys w) :
    dumps v = dumps w ↔ Same v w := by
  rw [same_iff hv hw, ← unifyNaNs_sortKeys, ← unifyNaNs_sortKeys, dumps, dumps, String.ofList_inj,
    printValue_eq_iff]

end RagEval.Lib.Json
