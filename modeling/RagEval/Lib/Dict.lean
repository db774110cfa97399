import Mathlib.Data.List.Nodup
import Mathlib.Data.List.Basic

/-!
# Insertion-ordered dictionaries

`Dict κ α` is a finite map that iterates in insertion order: overwriting a key
keeps its place, a new key goes to the end. The keys are pairwise distinct by
construction.

## Main definitions

- `Dict.get?`, `Dict.set`, `Dict.erase`, `Dict.update` — the map operations
- `Dict.ofList`, `Dict.ofKeys` — displays and comprehensions
-/

namespace RagEval.Lib

universe u v
variable {κ : Type u} {α : Type v} [DecidableEq κ]

namespace Assoc

/-- The value stored under `k`, if any. -/
def get (k : κ) : List (κ × α) → Option α
  | [] => none
  | (k', v) :: rest => if k' = k then some v else get k rest

/-- Overwrite `k` in place, or append it. -/
def set (k : κ) (v : α) : List (κ × α) → List (κ × α)
  | [] => [(k, v)]
  | (k', v') :: rest => if k' = k then (k, v) :: rest else (k', v') :: set k v rest

theorem keys_set (k : κ) (v : α) (l : List (κ × α)) :
    (set k v l).map Prod.fst =
      if k ∈ l.map Prod.fst then l.map Prod.fst else l.map Prod.fst ++ [k] := by
  induction l with
  | nil => simp [set]
  | cons kv rest ih =>
    obtain ⟨k', v'⟩ := kv
    by_cases h : k' = k
    · simp [set, h]
    · have h' : ¬k = k' := fun he => h he.symm
      simp only [set, if_neg h, List.map_cons, ih, List.mem_cons, h', false_or]
      split <;> simp

theorem nodup_set (k : κ) (v : α) {l : List (κ × α)} (h : (l.map Prod.fst).Nodup) :
    ((set k v l).map Prod.fst).Nodup := by
  rw [keys_set]
  split
  · exact h
  · next hk =>
    rw [List.nodup_append]
    refine ⟨h, by simp, ?_⟩
    intro a ha b hb
    rw [List.mem_singleton] at hb
    exact fun he => hk (hb ▸ he ▸ ha)

/-- Overwriting a key leaves what is before and after its entry. -/
theorem set_append_cons {xs ys : List (κ × α)} {k : κ} (hk : k ∉ xs.map Prod.fst)
    (v w : α) : set k w (xs ++ (k, v) :: ys) = xs ++ (k, w) :: ys := by
  induction xs with
  | nil => rw [List.nil_append, set, if_pos rfl, List.nil_append]
  | cons kv xs ih =>
    rw [List.map_cons, List.mem_cons, not_or] at hk
    rw [List.cons_append, set, if_neg (Ne.symm hk.1), ih hk.2, List.cons_append]

theorem get_set (k k' : κ) (v : α) (l : List (κ × α)) :
    get k' (set k v l) = if k = k' then some v else get k' l := by
  induction l with
  | nil => simp [set, get]
  | cons kv rest ih =>
    obtain ⟨a, b⟩ := kv
    by_cases ha : a = k
    · subst ha
      by_cases hk : a = k' <;> simp [set, get, hk]
    · by_cases hk : a = k'
      · subst hk
        have : ¬k = a := fun he => ha he.symm
        simp [set, get, ha, this]
      · simp [set, get, ha, hk, ih]

/-- Writing what is there changes nothing. -/
theorem set_of_get {k : κ} {v : α} {l : List (κ × α)} (h : get k l = some v) : set k v l = l := by
  induction l with
  | nil => cases h
  | cons kv rest ih =>
    obtain ⟨a, b⟩ := kv
    by_cases ha : a = k
    · rw [get, if_pos ha, Option.some.injEq] at h
      rw [set, if_pos ha, ha, h]
    · rw [get, if_neg ha] at h
      rw [set, if_neg ha, ih h]

theorem get_map {β : Type*} (f : κ → α → β) (k : κ) (l : List (κ × α)) :
    get k (l.map fun kv => (kv.1, f kv.1 kv.2)) = (get k l).map (f k) := by
  induction l with
  | nil => rfl
  | cons kv rest ih =>
    obtain ⟨a, b⟩ := kv
    by_cases ha : a = k
    · subst ha
      rw [List.map_cons, get, get, if_pos rfl, if_pos rfl, Option.map_some]
    · rw [List.map_cons, get, get, if_neg ha, if_neg ha, ih]

theorem get_eq_none_iff (k : κ) (l : List (κ × α)) :
    get k l = none ↔ k ∉ l.map Prod.fst := by
  induction l with
  | nil => simp [get]
  | cons kv rest ih =>
    obtain ⟨a, b⟩ := kv
    by_cases ha : a = k
    · simp [get, ha]
    · have : ¬k = a := fun he => ha he.symm
      simp [get, ha, this, ih]

theorem mem_of_get_eq_some {k : κ} {v : α} {l : List (κ × α)} (h : get k l = some v) :
    (k, v) ∈ l := by
  induction l with
  | nil => simp [get] at h
  | cons kv rest ih =>
    obtain ⟨a, b⟩ := kv
    by_cases ha : a = k
    · simp only [get, if_pos ha, Option.some.injEq] at h
      simp [ha, h]
    · simp only [get, if_neg ha] at h
      exact List.mem_cons_of_mem _ (ih h)

theorem get_eq_some_of_mem {k : κ} {v : α} {l : List (κ × α)}
    (hn : (l.map Prod.fst).Nodup) (h : (k, v) ∈ l) : get k l = some v := by
  induction l with
  | nil => simp at h
  | cons kv rest ih =>
    obtain ⟨a, b⟩ := kv
    simp only [List.map_cons, List.nodup_cons] at hn
    rcases List.mem_cons.mp h with he | hr
    · cases he
      simp [get]
    · have hne : ¬a = k := fun he => hn.1 (he ▸ List.mem_map_of_mem (f := Prod.fst) hr)
      simp only [get, if_neg hne]
      exact ih hn.2 hr

end Assoc

/-- A finite map that remembers insertion order. -/
structure Dict (κ : Type u) (α : Type v) where
  items : List (κ × α)
  nodup_keys : (items.map Prod.fst).Nodup

namespace Dict

omit [DecidableEq κ] in
theorem ext_items {d e : Dict κ α} (h : d.items = e.items) : d = e := by
  cases d
  cases e
  obtain rfl := h
  rfl

/-- Keys in insertion order. -/
def keys (d : Dict κ α) : List κ := d.items.map Prod.fst

/-- Values in insertion order. -/
def values (d : Dict κ α) : List α := d.items.map Prod.snd

def empty : Dict κ α := ⟨[], List.nodup_nil⟩

def get? (d : Dict κ α) (k : κ) : Option α := Assoc.get k d.items

/-- `d.get(k, default)`. -/
def getD (d : Dict κ α) (k : κ) (dflt : α) : α := (d.get? k).getD dflt

def set (d : Dict κ α) (k : κ) (v : α) : Dict κ α :=
  ⟨Assoc.set k v d.items, Assoc.nodup_set k v d.nodup_keys⟩

def erase (d : Dict κ α) (k : κ) : Dict κ α :=
  ⟨d.items.filter (fun kv => kv.1 ≠ k),
    d.nodup_keys.sublist (List.filter_sublist.map Prod.fst)⟩

/-- `d.update(e)`: the entries of `e` win. -/
def update (d e : Dict κ α) : Dict κ α :=
  e.items.foldl (fun acc kv => acc.set kv.1 kv.2) d

/-- A dictionary display `{k₁: v₁, …}`; a repeated key keeps its last value. -/
def ofList (l : List (κ × α)) : Dict κ α :=
  l.foldl (fun acc kv => acc.set kv.1 kv.2) empty

/-- The comprehension `{k: v for k in ks}`. -/
def ofKeys (ks : List κ) (v : α) : Dict κ α :=
  ks.foldl (fun acc k => acc.set k v) empty

/-- The comprehension `{k: f(v) for k, v in d.items()}`. -/
def mapValues {β : Type*} (f : α → β) (d : Dict κ α) : Dict κ β :=
  ⟨d.items.map fun kv => (kv.1, f kv.2), by simpa [Function.comp_def] using d.nodup_keys⟩

/-- The comprehension `{k: f(v) for k, v in d.items() if …}`. -/
def filterMap {β : Type*} (f : α → Option β) (d : Dict κ α) : Dict κ β where
  items := d.items.filterMap fun kv => (f kv.2).map (Prod.mk kv.1)
  nodup_keys := by
    refine d.nodup_keys.sublist ?_
    induction d.items with
    | nil => exact .slnil
    | cons kv rest ih =>
      cases hf : f kv.2 with
      | none => simpa [hf] using ih.cons kv.1
      | some b => simpa [hf] using ih

omit [DecidableEq κ] in
theorem keys_nodup (d : Dict κ α) : d.keys.Nodup := d.nodup_keys

omit [DecidableEq κ] in
@[simp] theorem keys_empty : (empty : Dict κ α).keys = [] := rfl

@[simp] theorem get?_empty (k : κ) : (empty : Dict κ α).get? k = none := rfl

@[simp] theorem get?_set (d : Dict κ α) (k k' : κ) (v : α) :
    (d.set k v).get? k' = if k = k' then some v else d.get? k' :=
  Assoc.get_set k k' v d.items

/-- After a write a value is the one written, or an older one of another key. -/
theorem get?_set_cases {d : Dict κ α} {k k' : κ} {v v' : α} (h : (d.set k v).get? k' = some v') :
    (k = k' ∧ v = v') ∨ (k ≠ k' ∧ d.get? k' = some v') := by
  rw [get?_set] at h
  split_ifs at h with he
  · exact Or.inl ⟨he, Option.some.inj h⟩
  · exact Or.inr ⟨he, h⟩

theorem keys_set (d : Dict κ α) (k : κ) (v : α) :
    (d.set k v).keys = if k ∈ d.keys then d.keys else d.keys ++ [k] :=
  Assoc.keys_set k v d.items

@[simp] theorem mem_keys_set (d : Dict κ α) (k k' : κ) (v : α) :
    k' ∈ (d.set k v).keys ↔ k' = k ∨ k' ∈ d.keys := by
  rw [keys_set]
  split
  · next h =>
    constructor
    · exact Or.inr
    · rintro (rfl | h')
      · exact h
      · exact h'
  · simp [or_comm]

theorem get?_eq_none_iff (d : Dict κ α) (k : κ) : d.get? k = none ↔ k ∉ d.keys :=
  Assoc.get_eq_none_iff k d.items

theorem mem_keys_iff (d : Dict κ α) (k : κ) : k ∈ d.keys ↔ ∃ v, d.get? k = some v := by
  rw [← not_iff_not, ← get?_eq_none_iff]
  cases d.get? k <;> simp

theorem mem_keys_of_get? {d : Dict κ α} {k : κ} {v : α} (h : d.get? k = some v) :
    k ∈ d.keys := (mem_keys_iff d k).mpr ⟨v, h⟩

theorem get?_eq_some_iff (d : Dict κ α) (k : κ) (v : α) :
    d.get? k = some v ↔ (k, v) ∈ d.items :=
  ⟨Assoc.mem_of_get_eq_some, Assoc.get_eq_some_of_mem d.nodup_keys⟩

/-- Every iterated value is the value of its key. -/
theorem mem_values_iff (d : Dict κ α) (v : α) : v ∈ d.values ↔ ∃ k, d.get? k = some v := by
  simp only [values, List.mem_map, get?_eq_some_iff, Prod.exists, exists_eq_right]

theorem keys_set_of_mem {d : Dict κ α} {k : κ} (h : k ∈ d.keys) (v : α) :
    (d.set k v).keys = d.keys := by
  rw [keys_set, if_pos h]

theorem get?_erase (d : Dict κ α) (k k' : κ) :
    (d.erase k).get? k' = if k = k' then none else d.get? k' := by
  by_cases h : k = k'
  · subst h
    rw [if_pos rfl, get?_eq_none_iff]
    simp [erase, keys]
  · rw [if_neg h]
    have h' : k' ≠ k := fun he => h he.symm
    cases hg : d.get? k' with
    | none =>
      rw [get?_eq_none_iff] at hg ⊢
      intro hm
      exact hg ((List.filter_sublist.map Prod.fst).subset hm)
    | some v =>
      rw [get?_eq_some_iff] at hg ⊢
      simp [erase, hg, h']

/-! ### Values told apart -/

section
variable {β : Type*} {f : α → β} {d : Dict κ α}

/-- `f` tells the values of different keys apart. -/
def Separated (f : α → β) (d : Dict κ α) : Prop :=
  ∀ ⦃k k' : κ⦄ ⦃v v' : α⦄, d.get? k = some v → d.get? k' = some v' → f v = f v' → k = k'

/-- A value is written that `f` tells from those of the other keys. -/
theorem Separated.set (h : d.Separated f) {k : κ} {v : α}
    (hnew : ∀ k' v', k ≠ k' → d.get? k' = some v' → f v' ≠ f v) : (d.set k v).Separated f := by
  intro k₁ k₂ v₁ v₂ h₁ h₂ hsame
  obtain ⟨rfl, rfl⟩ | ⟨hne₁, h₁⟩ := get?_set_cases h₁
  · obtain ⟨rfl, rfl⟩ | ⟨hne₂, h₂⟩ := get?_set_cases h₂
    · rfl
    · exact absurd hsame.symm (hnew k₂ v₂ hne₂ h₂)
  · obtain ⟨rfl, rfl⟩ | ⟨hne₂, h₂⟩ := get?_set_cases h₂
    · exact absurd hsame (hnew k₁ v₁ hne₁ h₁)
    · exact h h₁ h₂ hsame

theorem get?_of_get?_erase {k k' : κ} {v : α} (h : (d.erase k).get? k' = some v) :
    d.get? k' = some v := by
  rw [get?_erase] at h
  split_ifs at h
  exact h

theorem Separated.erase (h : d.Separated f) (k : κ) : (d.erase k).Separated f :=
  fun _ _ _ _ h₁ h₂ => h (get?_of_get?_erase h₁) (get?_of_get?_erase h₂)

theorem Separated.nodup (h : d.Separated f) : (d.values.map f).Nodup := by
  rw [values, List.map_map]
  have hitems : d.items.Nodup := List.Nodup.of_map Prod.fst d.nodup_keys
  apply hitems.map_on
  rintro ⟨k, v⟩ hkv ⟨k', v'⟩ hkv' he
  have hk := (get?_eq_some_iff d k v).mpr hkv
  have hk' := (get?_eq_some_iff d k' v').mpr hkv'
  obtain rfl := h hk hk' he
  rw [hk] at hk'
  rw [Option.some.inj hk']

end

@[simp] theorem get?_mapValues {β : Type*} (f : α → β) (d : Dict κ α) (k : κ) :
    (d.mapValues f).get? k = (d.get? k).map f := by
  obtain ⟨l, hn⟩ := d
  simp only [mapValues, get?]
  clear hn
  induction l with
  | nil => rfl
  | cons kv rest ih =>
    obtain ⟨a, b⟩ := kv
    by_cases ha : a = k
    · simp [Assoc.get, ha]
    · simpa [Assoc.get, ha] using ih

@[simp] theorem get?_filterMap {β : Type*} (f : α → Option β) (d : Dict κ α) (k : κ) :
    (d.filterMap f).get? k = (d.get? k).bind f := by
  obtain ⟨l, hn⟩ := d
  simp only [filterMap, get?]
  induction l with
  | nil => rfl
  | cons kv rest ih =>
    obtain ⟨a, b⟩ := kv
    simp only [List.map_cons, List.nodup_cons] at hn
    by_cases ha : a = k
    · subst ha
      cases hf : f b with
      | some c => simp [Assoc.get, hf]
      | none =>
        have hrest : Assoc.get a rest = none := (Assoc.get_eq_none_iff a rest).mpr hn.1
        simpa [Assoc.get, hf, hrest] using ih hn.2
    · cases hf : f b <;> simpa [Assoc.get, hf, ha] using ih hn.2

section Fold
variable {β : Type*} (key : β → κ) (val : β → α)

theorem get?_foldl_set_of_not_mem (l : List β) (d : Dict κ α) (k : κ)
    (h : k ∉ l.map key) :
    (l.foldl (fun acc x => acc.set (key x) (val x)) d).get? k = d.get? k := by
  induction l generalizing d with
  | nil => rfl
  | cons x rest ih =>
    simp only [List.map_cons, List.mem_cons, not_or] at h
    rw [List.foldl_cons, ih _ h.2, get?_set, if_neg (fun he => h.1 he.symm)]

theorem mem_keys_foldl_set (l : List β) (d : Dict κ α) (k : κ) :
    k ∈ (l.foldl (fun acc x => acc.set (key x) (val x)) d).keys ↔
      k ∈ l.map key ∨ k ∈ d.keys := by
  induction l generalizing d with
  | nil => simp
  | cons x rest ih =>
    rw [List.foldl_cons, ih, mem_keys_set, List.map_cons, List.mem_cons]
    tauto

end Fold

/-- Lookup after `d.update(e)`: the patch first, the old dictionary otherwise. -/
theorem get?_update (d e : Dict κ α) (k : κ) :
    (d.update e).get? k = (e.get? k).or (d.get? k) := by
  obtain ⟨l, hn⟩ := e
  simp only [update, get?]
  change Dict.get? _ k = _
  induction l generalizing d with
  | nil => rfl
  | cons kv rest ih =>
    obtain ⟨a, b⟩ := kv
    simp only [List.map_cons, List.nodup_cons] at hn
    by_cases ha : a = k
    · subst ha
      rw [List.foldl_cons, get?_foldl_set_of_not_mem Prod.fst Prod.snd rest _ _ hn.1]
      simp [Assoc.get]
    · rw [List.foldl_cons, ih _ hn.2]
      simp only [Assoc.get, if_neg ha]
      congr 1
      change (d.set a b).get? k = d.get? k
      rw [get?_set, if_neg ha]

theorem get?_update_of_none {d e : Dict κ α} {k : κ} (h : e.get? k = none) :
    (d.update e).get? k = d.get? k := by
  rw [get?_update, h, Option.none_or]

theorem get?_update_of_some {d e : Dict κ α} {k : κ} {v : α} (h : e.get? k = some v) :
    (d.update e).get? k = some v := by
  rw [get?_update, h, Option.some_or]

@[simp] theorem mem_keys_ofKeys (ks : List κ) (v : α) (k : κ) :
    k ∈ (ofKeys ks v).keys ↔ k ∈ ks := by
  have h := mem_keys_foldl_set (fun k : κ => k) (fun _ => v) ks empty k
  simpa [ofKeys] using h

theorem get?_ofKeys (ks : List κ) (v : α) (k : κ) :
    (ofKeys ks v).get? k = if k ∈ ks then some v else none := by
  suffices h : ∀ d : Dict κ α, (ks.foldl (fun acc k => acc.set k v) d).get? k =
      if k ∈ ks then some v else d.get? k from h empty
  induction ks with
  | nil => simp
  | cons a rest ih =>
    intro d
    rw [List.foldl_cons, ih, get?_set]
    by_cases hr : k ∈ rest
    · simp [hr]
    · by_cases ha : a = k
      · simp [ha]
      · have : ¬k = a := fun he => ha he.symm
        simp [hr, ha, this]

section Loop
variable {step : Dict κ α → κ × α → Dict κ α} {f : κ → α → α}

/-- A loop over `list(d.items())` whose steps write to the key they are at. -/
theorem items_foldl_items
    (hstep : ∀ d k v, d.get? k = some v → (step d (k, v)).items = Assoc.set k (f k v) d.items)
    (d : Dict κ α) :
    (d.items.foldl step d).items = d.items.map fun kv => (kv.1, f kv.1 kv.2) := by
  suffices hloop : ∀ (rest done : List (κ × α)) (d : Dict κ α), d.items = done ++ rest →
      (rest.foldl step d).items = done ++ rest.map fun kv => (kv.1, f kv.1 kv.2) from
    hloop d.items [] d rfl
  intro rest
  induction rest with
  | nil => exact fun done d hd => hd
  | cons kv rest ih =>
    obtain ⟨k, v⟩ := kv
    intro done d hd
    have hnodup := d.nodup_keys
    rw [hd, List.map_append, List.map_cons, List.nodup_append] at hnodup
    have hk : k ∉ done.map Prod.fst :=
      fun hmem => hnodup.2.2 k hmem k List.mem_cons_self rfl
    have hget : d.get? k = some v := by
      rw [get?_eq_some_iff, hd]
      exact List.mem_append_right done List.mem_cons_self
    have hitems : (step d (k, v)).items = done ++ [(k, f k v)] ++ rest := by
      rw [hstep d k v hget, hd, Assoc.set_append_cons hk, List.append_assoc, List.singleton_append]
    rw [List.foldl_cons, ih _ _ hitems, List.map_cons, List.append_assoc, List.singleton_append]

end Loop

/-- A comprehension holds under a key what it holds there only. -/
theorem get?_ofList_map_congr {β : Type*} {l : List β} {key : β → κ} {val val' : β → α} {k : κ}
    (h : ∀ x ∈ l, key x = k → val x = val' x) :
    (ofList (l.map fun x => (key x, val x))).get? k =
      (ofList (l.map fun x => (key x, val' x))).get? k := by
  suffices hfold : ∀ d d' : Dict κ α, d.get? k = d'.get? k →
      ((l.map fun x => (key x, val x)).foldl (fun acc kv => acc.set kv.1 kv.2) d).get? k =
        ((l.map fun x => (key x, val' x)).foldl (fun acc kv => acc.set kv.1 kv.2) d').get? k from
    hfold empty empty rfl
  induction l with
  | nil => exact fun _ _ hd => hd
  | cons x rest ih =>
    intro d d' hd
    refine ih (fun y hy => h y (List.mem_cons_of_mem x hy)) _ _ ?_
    rw [get?_set, get?_set]
    split
    · next hx => exact congrArg some (h x List.mem_cons_self hx)
    · exact hd

/-- Writing a new key appends its entry. -/
theorem items_set_of_not_mem {d : Dict κ α} {k : κ} (h : k ∉ d.keys) (v : α) :
    (d.set k v).items = d.items ++ [(k, v)] := by
  suffices happend : ∀ l : List (κ × α), k ∉ l.map Prod.fst → Assoc.set k v l = l ++ [(k, v)] from
    happend d.items h
  intro l hl
  induction l with
  | nil => rfl
  | cons kv rest ih =>
    rw [List.map_cons, List.mem_cons, not_or] at hl
    rw [Assoc.set, if_neg (Ne.symm hl.1), ih hl.2, List.cons_append]

/-- A display whose keys are distinct holds its entries as they are listed. -/
theorem items_ofList {l : List (κ × α)} (h : (l.map Prod.fst).Nodup) : (ofList l).items = l := by
  suffices hfold : ∀ d : Dict κ α, (d.items.map Prod.fst ++ l.map Prod.fst).Nodup →
      (l.foldl (fun acc kv => acc.set kv.1 kv.2) d).items = d.items ++ l from hfold empty h
  clear h
  induction l with
  | nil => exact fun d _ => (List.append_nil d.items).symm
  | cons kv rest ih =>
    intro d hd
    have hnew : kv.1 ∉ d.keys := by
      rw [List.nodup_append] at hd
      exact fun hmem => hd.2.2 kv.1 hmem kv.1 List.mem_cons_self rfl
    have hitems := items_set_of_not_mem hnew kv.2
    rw [List.foldl_cons, ih, hitems, List.append_assoc, List.singleton_append]
    rw [hitems, List.map_append, List.append_assoc]
    exact hd

theorem ofList_items (d : Dict κ α) : ofList d.items = d := ext_items (items_ofList d.nodup_keys)

/-! ### Mapped values -/

section
variable {β : Type*} (f : α → β)

theorem mapValues_set (d : Dict κ α) (k : κ) (v : α) :
    (d.set k v).mapValues f = (d.mapValues f).set k (f v) := by
  suffices hset : ∀ l : List (κ × α), (Assoc.set k v l).map (fun kv => (kv.1, f kv.2)) =
      Assoc.set k (f v) (l.map fun kv => (kv.1, f kv.2)) from ext_items (hset d.items)
  intro l
  induction l with
  | nil => rfl
  | cons kv rest ih =>
    rw [List.map_cons, Assoc.set, Assoc.set]
    split_ifs
    · rfl
    · rw [List.map_cons, ih]

omit [DecidableEq κ] in
theorem keys_mapValues (d : Dict κ α) : (d.mapValues f).keys = d.keys := by
  rw [keys, keys, mapValues, List.map_map]
  rfl

omit [DecidableEq κ] in
theorem values_mapValues (d : Dict κ α) : (d.mapValues f).values = d.values.map f := by
  rw [values, values, mapValues, List.map_map, List.map_map]
  rfl

theorem mapValues_erase (d : Dict κ α) (k : κ) :
    (d.erase k).mapValues f = (d.mapValues f).erase k := by
  apply ext_items
  exact (List.filter_map (p := fun kv : κ × β => decide (kv.1 ≠ k))
    (f := fun kv : κ × α => (kv.1, f kv.2)) (l := d.items)).symm

theorem mapValues_update (d e : Dict κ α) :
    (d.update e).mapValues f = (d.mapValues f).update (e.mapValues f) := by
  suffices hfold : ∀ l : List (κ × α), ∀ d : Dict κ α,
      (l.foldl (fun acc kv => acc.set kv.1 kv.2) d).mapValues f =
        (l.map fun kv => (kv.1, f kv.2)).foldl (fun acc kv => acc.set kv.1 kv.2) (d.mapValues f) from
    hfold e.items d
  intro l
  induction l with
  | nil => exact fun _ => rfl
  | cons kv rest ih =>
    intro d
    rw [List.foldl_cons, List.map_cons, List.foldl_cons, ← mapValues_set, ih]

end

/-- What a display holds was listed in it. -/
theorem mem_of_get?_ofList {l : List (κ × α)} {k : κ} {v : α} (h : (ofList l).get? k = some v) :
    (k, v) ∈ l := by
  suffices hfold : ∀ d : Dict κ α,
      (l.foldl (fun acc kv => acc.set kv.1 kv.2) d).get? k = some v →
        (k, v) ∈ l ∨ d.get? k = some v by
    obtain hmem | hempty := hfold empty h
    · exact hmem
    · cases hempty
  clear h
  induction l with
  | nil => exact fun _ => Or.inr
  | cons kv rest ih =>
    intro d h
    obtain hmem | hset := ih _ h
    · exact .inl (List.mem_cons_of_mem _ hmem)
    · obtain ⟨rfl, rfl⟩ | ⟨-, hold⟩ := get?_set_cases hset
      · exact .inl (List.mem_cons_self ..)
      · exact .inr hold

end Dict

end RagEval.Lib
