import RagEval.Lib.JsonRoundTrip

/-!
# The values of JSON texts

What `json.loads` returns: the keys of its dicts are distinct, and its NaNs have one bit
pattern. Such a value is written and read back as it is.

## Main definitions

- `Canonical` — the values that texts hold

## Main results

- `canonical_of_loads` — no other value is ever read
- `loads_dumpsWith_of_canonical` — each of them reads back
- `loads_dumps` — a canonical text holds the value it was written for
-/

namespace RagEval.Lib.Json
open RagEval.Lib.Double

/-! ## Decimals are no NaNs -/

theorem nearestBits_le (num den : Nat) : nearestBits num den ≤ 2047 * 2 ^ 52 := by
  unfold nearestBits
  split_ifs
  · exact Nat.zero_le _
  · exact Nat.min_le_left _ _

theorem ofFloat_ofDecimal_ne_nan (negative : Bool) (digits : Nat) (exponent : Int) :
    Num.ofFloat (ofDecimal negative digits exponent) ≠ .nan := by
  have hle := nearestBits_le (digits * 10 ^ exponent.toNat) (10 ^ (-exponent).toNat)
  unfold ofDecimal Num.ofFloat
  generalize nearestBits (digits * 10 ^ exponent.toNat) (10 ^ (-exponent).toNat) = magnitude at hle ⊢
  have hbits : (BitVec.ofNat 64 ((if negative then 2 ^ 63 else 0) + magnitude)).toNat =
      (if negative then 2 ^ 63 else 0) + magnitude := by
    rw [BitVec.toNat_ofNat]
    apply Nat.mod_eq_of_lt
    split_ifs <;> omega
  dsimp only
  rw [hbits]
  -- with all exponent bits set the magnitude is the bound itself, and its fraction is zero
  have hfraction : ((if negative then 2 ^ 63 else 0) + magnitude) / 2 ^ 52 % 2 ^ 11 = 2047 →
      ((if negative then 2 ^ 63 else 0) + magnitude) % 2 ^ 52 = 0 := by
    split_ifs <;> omega
  generalize (if negative then 2 ^ 63 else 0) + magnitude = n at hfraction
  by_cases hexponent : n / 2 ^ 52 % 2 ^ 11 = 2047
  · rw [if_pos hexponent, if_pos (hfraction hexponent)]
    exact Num.noConfusion
  · rw [if_neg hexponent]
    split_ifs <;> exact Num.noConfusion

theorem unifyNaN_ofDecimal (negative : Bool) (digits : Nat) (exponent : Int) :
    unifyNaN (ofDecimal negative digits exponent) = ofDecimal negative digits exponent :=
  if_neg (ofFloat_ofDecimal_ne_nan negative digits exponent)

/-! ## Canonical values -/

/-- Dicts have distinct keys, and all NaNs are one. -/
structure Canonical (v : Value) : Prop where
  distinctKeys : DistinctKeys v
  oneNaN : unifyNaNs v = v

theorem distinctKeysList_iff (vs : List Value) :
    DistinctKeysList vs ↔ ∀ v ∈ vs, DistinctKeys v := by
  induction vs with
  | nil => simp [DistinctKeysList]
  | cons v vs ih => rw [DistinctKeysList, List.forall_mem_cons, ih]

theorem distinctKeysItems_iff (kvs : List (String × Value)) :
    DistinctKeysItems kvs ↔ ∀ kv ∈ kvs, DistinctKeys kv.2 := by
  induction kvs with
  | nil => simp [DistinctKeysItems]
  | cons kv kvs ih => rw [DistinctKeysItems, List.forall_mem_cons, ih]

theorem unifyNaNsList_eq_map (vs : List Value) : unifyNaNsList vs = vs.map unifyNaNs := by
  induction vs with
  | nil => rfl
  | cons v vs ih => rw [unifyNaNsList, ih, List.map_cons]

theorem canonical_list {vs : List Value} (h : ∀ v ∈ vs, Canonical v) : Canonical (.list vs) := by
  refine ⟨(distinctKeysList_iff vs).mpr fun v hv => (h v hv).distinctKeys, ?_⟩
  show Value.list (unifyNaNsList vs) = .list vs
  rw [unifyNaNsList_eq_map, List.map_congr_left fun v hv => (h v hv).oneNaN, List.map_id']

theorem canonical_dict {kvs : List (String × Value)} (hkeys : (kvs.map Prod.fst).Nodup)
    (h : ∀ kv ∈ kvs, Canonical kv.2) : Canonical (.dict kvs) := by
  refine ⟨⟨hkeys, (distinctKeysItems_iff kvs).mpr fun kv hkv => (h kv hkv).distinctKeys⟩, ?_⟩
  have hmap : kvs.map (fun kv => (kv.1, unifyNaNs kv.2)) = kvs.map id :=
    List.map_congr_left fun kv hkv => Prod.ext rfl (h kv hkv).oneNaN
  show Value.dict (unifyNaNsItems kvs) = .dict kvs
  rw [unifyNaNsItems_eq_map, hmap, List.map_id]

theorem canonical_word (w : Fin 6) : Canonical (Atom.word w).value := by
  fin_cases w
  all_goals exact ⟨trivial, rfl⟩

theorem canonical_numberValue (negative : Bool) (whole : List Char) (fraction : Option (List Char))
    (exponent : Option Int) : Canonical (numberValue negative whole fraction exponent) := by
  unfold numberValue
  split_ifs
  · exact ⟨trivial, rfl⟩
  · exact ⟨trivial, congrArg Value.float (unifyNaN_ofDecimal _ _ _)⟩

theorem canonical_of_scanAtom {cs rest : List Char} {v : Value} (h : scanAtom cs = some (v, rest)) :
    Canonical v := by
  unfold scanAtom at h
  split at h
  · next w hw =>
    obtain rfl := (Prod.mk.inj (Option.some.inj h)).1
    exact canonical_word w
  · unfold scanNumber at h
    split at h
    · cases h
    · obtain rfl := (Prod.mk.inj (Option.some.inj h)).1
      exact canonical_numberValue _ _ _ _

/-- A dict that is read keeps one of the members of each key. -/
theorem canonical_ofList {kvs : List (String × Value)} (h : ∀ kv ∈ kvs, Canonical kv.2) :
    Canonical (.dict (Dict.ofList kvs).items) := by
  refine canonical_dict (Dict.ofList kvs).nodup_keys fun kv hkv => h kv ?_
  exact Dict.mem_of_get?_ofList ((Dict.get?_eq_some_iff _ _ _).mpr hkv)

theorem scan_canonical (n : Nat) :
    (∀ {cs rest v}, scanValue n cs = some (v, rest) → Canonical v) ∧
    (∀ {cs rest vs}, scanElements n cs = some (vs, rest) → ∀ v ∈ vs, Canonical v) ∧
    ∀ {cs rest kvs}, scanMembers n cs = some (kvs, rest) → ∀ kv ∈ kvs, Canonical kv.2 := by
  induction n with
  | zero =>
    refine ⟨fun h => ?_, fun h => ?_, fun h => ?_⟩
    · rw [scanValue] at h
      cases h
    · rw [scanElements] at h
      cases h
    · rw [scanMembers] at h
      · cases h
      · rintro _ _ ⟨⟩
  | succ n ih =>
    obtain ⟨ihvalue, ihelements, ihmembers⟩ := ih
    refine ⟨?_, ?_, ?_⟩
    · intro cs rest v h
      unfold scanValue at h
      split at h
      · cases h
      · obtain ⟨⟨s, more⟩, -, h⟩ := Option.map_eq_some_iff.mp h
        obtain rfl := (Prod.mk.inj h).1
        exact ⟨trivial, rfl⟩
      · next fuel tail hn =>
        obtain rfl := Nat.succ.inj hn
        split at h
        · obtain rfl := (Prod.mk.inj (Option.some.inj h)).1
          exact canonical_list (List.forall_mem_nil _)
        · obtain ⟨⟨vs, more⟩, hvs, h⟩ := Option.map_eq_some_iff.mp h
          obtain rfl := (Prod.mk.inj h).1
          exact canonical_list (ihelements hvs)
      · next fuel tail hn =>
        obtain rfl := Nat.succ.inj hn
        split at h
        · obtain rfl := (Prod.mk.inj (Option.some.inj h)).1
          exact canonical_dict List.nodup_nil (List.forall_mem_nil _)
        · obtain ⟨⟨kvs, more⟩, hkvs, h⟩ := Option.map_eq_some_iff.mp h
          obtain rfl := (Prod.mk.inj h).1
          exact canonical_ofList (ihmembers hkvs)
      · exact canonical_of_scanAtom h
    · intro cs rest vs h
      rw [scanElements] at h
      obtain ⟨⟨v, more⟩, hv, h⟩ := Option.bind_eq_some_iff.mp h
      have hcanonical := ihvalue hv
      dsimp only at h
      split at h
      · obtain rfl := (Prod.mk.inj (Option.some.inj h)).1
        exact List.forall_mem_singleton.mpr hcanonical
      · obtain ⟨⟨vs', rest'⟩, hvs, h⟩ := Option.bind_eq_some_iff.mp h
        obtain rfl := (Prod.mk.inj (Option.some.inj h)).1
        exact List.forall_mem_cons.mpr ⟨hcanonical, ihelements hvs⟩
      · cases h
    · intro cs rest kvs h
      unfold scanMembers at h
      split at h
      · next fuel tail hn =>
        obtain rfl := Nat.succ.inj hn
        obtain ⟨⟨k, more⟩, -, h⟩ := Option.bind_eq_some_iff.mp h
        dsimp only at h
        split at h
        · obtain ⟨⟨v, next⟩, hv, h⟩ := Option.bind_eq_some_iff.mp h
          have hcanonical := ihvalue hv
          dsimp only at h
          split at h
          · obtain rfl := (Prod.mk.inj (Option.some.inj h)).1
            exact List.forall_mem_singleton.mpr hcanonical
          · obtain ⟨⟨kvs', rest'⟩, hkvs, h⟩ := Option.bind_eq_some_iff.mp h
            obtain rfl := (Prod.mk.inj (Option.some.inj h)).1
            exact List.forall_mem_cons.mpr ⟨hcanonical, ihmembers hkvs⟩
          · cases h
        · cases h
      · cases h

/-- No text holds a value that is not canonical. -/
theorem canonical_of_loads {s : String} {v : Value} (h : loads s = some v) : Canonical v := by
  unfold loads at h
  split at h
  · cases h
  · split at h
    · next w rest hscan =>
      split_ifs at h
      obtain rfl := Option.some.inj h
      exact (scan_canonical _).1 hscan
    · cases h

/-! ## Texts of values -/

theorem canonical_unifyNaNs {v : Value} (hv : DistinctKeys v) : Canonical (unifyNaNs v) :=
  canonical_of_loads (loads_dumpsWith .compact hv)

variable (sep : Separators)

theorem loads_dumpsWith_of_canonical {v : Value} (hv : Canonical v) :
    loads (dumpsWith sep v) = some v := by
  rw [loads_dumpsWith sep hv.distinctKeys, hv.oneNaN]

mutual
/-- The bits of a NaN do not show in its text. -/
theorem printWith_unifyNaNs : ∀ v : Value, printWith sep (unifyNaNs v) = printWith sep v
  | .none | .bool true | .bool false | .int _ | .str _ => rfl
  | .float x => printFloat_unifyNaN x
  | .list [] => rfl
  | .list (v :: vs) => congrArg (List.cons '[')
      (congrArg₂ List.append (printWith_unifyNaNs v) (printElements_unifyNaNsList vs))
  | .dict [] => rfl
  | .dict ((k, v) :: kvs) => congrArg (fun cs => '{' :: (printStr k ++ ':' :: (sep.key ++ cs)))
      (congrArg₂ List.append (printWith_unifyNaNs v) (printMembers_unifyNaNsItems kvs))

theorem printElements_unifyNaNsList : ∀ vs : List Value,
    printElements sep (unifyNaNsList vs) = printElements sep vs
  | [] => rfl
  | v :: vs => congrArg (fun cs => ',' :: (sep.item ++ cs))
      (congrArg₂ List.append (printWith_unifyNaNs v) (printElements_unifyNaNsList vs))

theorem printMembers_unifyNaNsItems : ∀ kvs : List (String × Value),
    printMembers sep (unifyNaNsItems kvs) = printMembers sep kvs
  | [] => rfl
  | (k, v) :: kvs =>
    congrArg (fun cs => ',' :: (sep.item ++ (printStr k ++ ':' :: (sep.key ++ cs))))
      (congrArg₂ List.append (printWith_unifyNaNs v) (printMembers_unifyNaNsItems kvs))
end

theorem dumpsWith_unifyNaNs (v : Value) : dumpsWith sep (unifyNaNs v) = dumpsWith sep v :=
  congrArg String.ofList (printWith_unifyNaNs sep v)

/-! ## Canonical texts -/

theorem nodup_keys_sorted {kvs : List (String × Value)} (h : (kvs.map Prod.fst).Nodup) :
    (((sortKeysItems kvs).insertionSort fun a b => a.1 ≤ b.1).map Prod.fst).Nodup := by
  have hkeys : (sortKeysItems kvs).map Prod.fst = kvs.map Prod.fst := by
    rw [sortKeysItems_eq_map, List.map_map]
    rfl
  have hperm := (List.perm_insertionSort (fun a b : String × Value => a.1 ≤ b.1)
    (sortKeysItems kvs)).map Prod.fst
  rw [hkeys] at hperm
  exact hperm.nodup_iff.mpr h

mutual
theorem distinctKeys_sortKeys : ∀ {v : Value}, DistinctKeys v → DistinctKeys (sortKeys v)
  | .none, _ | .bool _, _ | .int _, _ | .float _, _ | .str _, _ => trivial
  | .list vs, h => @distinctKeysList_sortKeysList vs h
  | .dict kvs, h => by
    refine ⟨nodup_keys_sorted h.1, (distinctKeysItems_iff _).mpr fun kv hkv => ?_⟩
    have hmem := (List.mem_insertionSort _).mp hkv
    exact (distinctKeysItems_iff _).mp (distinctKeysItems_sortKeysItems h.2) kv hmem

theorem distinctKeysList_sortKeysList : ∀ {vs : List Value}, DistinctKeysList vs →
    DistinctKeysList (sortKeysList vs)
  | [], _ => trivial
  | _ :: _, h => ⟨distinctKeys_sortKeys h.1, distinctKeysList_sortKeysList h.2⟩

theorem distinctKeysItems_sortKeysItems : ∀ {kvs : List (String × Value)}, DistinctKeysItems kvs →
    DistinctKeysItems (sortKeysItems kvs)
  | [], _ => trivial
  | (_, _) :: _, h => ⟨distinctKeys_sortKeys h.1, distinctKeysItems_sortKeysItems h.2⟩
end

mutual
theorem sortKeys_sortKeys : ∀ v : Value, sortKeys (sortKeys v) = sortKeys v
  | .none | .bool _ | .int _ | .float _ | .str _ => rfl
  | .list vs => congrArg Value.list (sortKeysList_sortKeysList vs)
  | .dict kvs => by
    have htotal : Std.Total fun a b : String × Value => a.1 ≤ b.1 := ⟨fun a b => le_total a.1 b.1⟩
    have htrans : IsTrans (String × Value) fun a b => a.1 ≤ b.1 := ⟨fun _ _ _ => le_trans⟩
    show Value.dict (List.insertionSort _ (sortKeysItems (List.insertionSort _ (sortKeysItems kvs)))) =
      Value.dict (List.insertionSort _ (sortKeysItems kvs))
    have hinner : sortKeysItems
        (List.insertionSort (fun a b => a.1 ≤ b.1) (sortKeysItems kvs)) =
          List.insertionSort (fun a b => a.1 ≤ b.1) (sortKeysItems kvs) := by
      -- sorting by keys goes before or after what happens to the values
      have hmap : (List.insertionSort (fun a b => a.1 ≤ b.1) (sortKeysItems kvs)).map
          (fun kv => (kv.1, sortKeys kv.2)) =
            List.insertionSort (fun a b => a.1 ≤ b.1)
              ((sortKeysItems kvs).map fun kv => (kv.1, sortKeys kv.2)) :=
        List.map_insertionSort _ _ _ _ fun _ _ _ _ => Iff.rfl
      rw [sortKeysItems_eq_map (List.insertionSort _ _), hmap, ← sortKeysItems_eq_map,
        sortKeysItems_sortKeysItems kvs]
    rw [hinner, (List.pairwise_insertionSort _ _).insertionSort_eq]

theorem sortKeysList_sortKeysList : ∀ vs : List Value,
    sortKeysList (sortKeysList vs) = sortKeysList vs
  | [] => rfl
  | v :: vs => congrArg₂ List.cons (sortKeys_sortKeys v) (sortKeysList_sortKeysList vs)

theorem sortKeysItems_sortKeysItems : ∀ kvs : List (String × Value),
    sortKeysItems (sortKeysItems kvs) = sortKeysItems kvs
  | [] => rfl
  | (k, v) :: kvs => congrArg₂ List.cons (congrArg (Prod.mk k) (sortKeys_sortKeys v))
      (sortKeysItems_sortKeysItems kvs)
end

/-- The canonical text of a value holds the same value. -/
theorem loads_dumps {v : Value} (hv : DistinctKeys v) :
    ∃ w, loads (dumps v) = some w ∧ Same v w ∧ Canonical w := by
  have hsorted := distinctKeys_sortKeys hv
  have htext : dumps v = dumpsWith .compact (sortKeys v) :=
    congrArg String.ofList (printWith_compact (sortKeys v)).symm
  have hloads := loads_dumpsWith .compact hsorted
  have hcanonical := canonical_of_loads hloads
  refine ⟨_, htext ▸ hloads, ?_, hcanonical⟩
  rw [same_iff hv hcanonical.distinctKeys, hcanonical.oneNaN, ← unifyNaNs_sortKeys v,
    ← unifyNaNs_sortKeys (sortKeys v), sortKeys_sortKeys]

end RagEval.Lib.Json
