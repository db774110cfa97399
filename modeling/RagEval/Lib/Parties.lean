import Mathlib.Data.List.Nodup
import RagEval.Lib.Runs

/-!
# Parties with their own part of a store

Any number of parties run side by side over one store; a new one may join at every moment, under
an id of its own. What a party sees of the store is its view, which no other party changes. So an
invariant of one party, its own actions and its view, which its own steps keep, holds of every
party in every reachable state, however the parties are interleaved.

## Main definitions

- `Protocol` — how a party joins and how it goes on
- `Protocol.Step` — all parties, interleaved
- `Protocol.Separated` — each party changes its own view only
- `Protocol.sum` — the parties of two protocols over one store

## Main results

- `Separated.step_frame` — a step leaves the views of the other ids alone
- `Separated.run_sound` — the invariant of one party holds of all parties of a run
- `Separated.sum` — protocols of one view stay separated together
- `Separated.run_sum_sound` — each party of a sum satisfies the invariant of its own protocol
-/

namespace RagEval.Lib.Parties

universe u v w
variable {σ : Type u} {ι π : Type} {α : Type v} {ν : Type w}

/-- Joining and going on: the store before, the id, the action, and the store and the party
afterwards. -/
structure Protocol (σ : Type u) (ι π : Type) (α : Type v) where
  join : σ → ι → α → σ → π → Prop
  step : σ → ι → π → α → σ → π → Prop

/-- The store and every party so far. -/
structure System (σ : Type u) (ι π : Type) where
  store : σ
  parties : List (ι × π)

def System.init (store : σ) : System σ ι π := ⟨store, []⟩

/-- A party joins, or one of the parties goes on. -/
inductive Protocol.Step (P : Protocol σ ι π α) (s : System σ ι π) :
    ι × α → System σ ι π → Prop
  | joined {id : ι} {a : α} {store' : σ} {p : π} (hjoin : P.join s.store id a store' p) :
      P.Step s (id, a) ⟨store', s.parties ++ [(id, p)]⟩
  | moved {id : ι} {a : α} {store' : σ} {p p' : π} (before after : List (ι × π))
      (hparties : s.parties = before ++ (id, p) :: after)
      (hstep : P.step s.store id p a store' p') :
      P.Step s (id, a) ⟨store', before ++ (id, p') :: after⟩

/-- The actions taken under an id. -/
def actionsOf [DecidableEq ι] (id : ι) (trace : List (ι × α)) : List α :=
  (trace.filter fun l => l.1 = id).map Prod.snd

section
variable [DecidableEq ι]

theorem actionsOf_cons (id : ι) (l : ι × α) (trace : List (ι × α)) :
    actionsOf id (l :: trace) =
      if l.1 = id then l.2 :: actionsOf id trace else actionsOf id trace := by
  rw [actionsOf, List.filter_cons]
  by_cases h : l.1 = id <;> simp [h, actionsOf]

theorem actionsOf_concat_self (trace : List (ι × α)) (id : ι) (a : α) :
    actionsOf id (trace ++ [(id, a)]) = actionsOf id trace ++ [a] := by
  simp [actionsOf, List.filter_append]

theorem actionsOf_concat_of_ne {id id' : ι} (h : id' ≠ id) (trace : List (ι × α)) (a : α) :
    actionsOf id (trace ++ [(id', a)]) = actionsOf id trace := by
  simp [actionsOf, List.filter_append, h]

theorem mem_actionsOf {id : ι} {a : α} {trace : List (ι × α)} :
    a ∈ actionsOf id trace ↔ (id, a) ∈ trace := by
  simp [actionsOf]

end

/-- Each party owns a view of the store: it joins where the view is unused, keeps it in use, and
changes no other view. -/
structure Protocol.Separated (P : Protocol σ ι π α) (view : σ → ι → ν) (Used : ν → Prop) :
    Prop where
  join_unused : ∀ {store id a store' p}, P.join store id a store' p → ¬Used (view store id)
  join_used : ∀ {store id a store' p}, P.join store id a store' p → Used (view store' id)
  step_used : ∀ {store id p a store' p'}, P.step store id p a store' p' →
    Used (view store id) → Used (view store' id)
  join_frame : ∀ {store id a store' p}, P.join store id a store' p →
    ∀ {other}, other ≠ id → view store' other = view store other
  step_frame : ∀ {store id p a store' p'}, P.step store id p a store' p' →
    ∀ {other}, other ≠ id → view store' other = view store other

namespace Protocol.Separated
variable {P : Protocol σ ι π α} {view : σ → ι → ν} {Used : ν → Prop}

/-- A step leaves the views of the other ids alone. -/
theorem frame (hP : P.Separated view Used) {s s' : System σ ι π} {l : ι × α}
    (h : P.Step s l s') {other : ι} (hother : other ≠ l.1) :
    view s'.store other = view s.store other := by
  cases h with
  | joined hjoin => exact hP.join_frame hjoin hother
  | moved before after hparties hstep => exact hP.step_frame hstep hother

variable [DecidableEq ι]

/-- The ids of the parties are distinct, every party has a view in use and satisfies the
invariant, and nothing has happened under an id that is not in use. -/
structure Sound (view : σ → ι → ν) (Used : ν → Prop) (I : List α → ν → ι → π → Prop)
    (trace : List (ι × α)) (s : System σ ι π) : Prop where
  nodup : (s.parties.map Prod.fst).Nodup
  used : ∀ {id p}, (id, p) ∈ s.parties → Used (view s.store id)
  inv : ∀ {id p}, (id, p) ∈ s.parties → I (actionsOf id trace) (view s.store id) id p
  unused : ∀ id, ¬Used (view s.store id) → actionsOf id trace = []

variable {I : List α → ν → ι → π → Prop} {trace : List (ι × α)}

theorem Sound.joined (hP : P.Separated view Used)
    (hjoin : ∀ {store id a store' p}, P.join store id a store' p → I [a] (view store' id) id p)
    {s : System σ ι π} (hs : Sound view Used I trace s) {id : ι} {a : α} {store' : σ} {p : π}
    (h : P.join s.store id a store' p) :
    Sound view Used I (trace ++ [(id, a)]) ⟨store', s.parties ++ [(id, p)]⟩ := by
  have hne : ∀ {other q}, (other, q) ∈ s.parties → other ≠ id := by
    rintro other q hmem rfl
    exact hP.join_unused h (hs.used hmem)
  have hcases : ∀ {other q}, (other, q) ∈ s.parties ++ [(id, p)] →
      (other, q) ∈ s.parties ∨ other = id ∧ q = p := by
    intro other q hmem
    rcases List.mem_append.mp hmem with hmem | hmem
    · exact .inl hmem
    · exact .inr (Prod.mk.inj (List.mem_singleton.mp hmem))
  refine ⟨?_, fun {other q} hmem => ?_, fun {other q} hmem => ?_, fun other hother => ?_⟩
  · rw [List.map_append, List.nodup_append]
    refine ⟨hs.nodup, List.nodup_singleton _, ?_⟩
    intro other hother id' hid'
    obtain ⟨⟨_, q⟩, hmem, rfl⟩ := List.mem_map.mp hother
    obtain rfl := List.mem_singleton.mp hid'
    exact hne hmem
  · rcases hcases hmem with hold | ⟨rfl, rfl⟩
    · show Used (view store' other)
      rw [hP.join_frame h (hne hold)]
      exact hs.used hold
    · exact hP.join_used h
  · rcases hcases hmem with hold | ⟨rfl, rfl⟩
    · show I _ (view store' other) other q
      rw [hP.join_frame h (hne hold), actionsOf_concat_of_ne (hne hold).symm]
      exact hs.inv hold
    · rw [actionsOf_concat_self, hs.unused other (hP.join_unused h)]
      exact hjoin h
  · have hid : other ≠ id := by
      rintro rfl
      exact hother (hP.join_used h)
    rw [actionsOf_concat_of_ne hid.symm]
    apply hs.unused
    rwa [← hP.join_frame h hid]

theorem Sound.moved (hP : P.Separated view Used)
    (hstep : ∀ {store id p a store' p' past}, Used (view store id) →
      I past (view store id) id p → P.step store id p a store' p' →
      I (past ++ [a]) (view store' id) id p')
    {s : System σ ι π} (hs : Sound view Used I trace s) {id : ι} {a : α} {store' : σ} {p p' : π}
    {before after : List (ι × π)} (hparties : s.parties = before ++ (id, p) :: after)
    (h : P.step s.store id p a store' p') :
    Sound view Used I (trace ++ [(id, a)]) ⟨store', before ++ (id, p') :: after⟩ := by
  have hold : (id, p) ∈ s.parties := mem_split hparties
  have hused : Used (view store' id) := hP.step_used h (hs.used hold)
  have hnodup := hs.nodup
  rw [hparties, List.map_append, List.map_cons] at hnodup
  -- the other parties have other ids
  have hcases : ∀ {other q}, (other, q) ∈ before ++ (id, p') :: after →
      (other ≠ id ∧ (other, q) ∈ s.parties) ∨ other = id ∧ q = p' := by
    intro other q hmem
    have hrest : (other, q) ∈ before ++ after → other ≠ id ∧ (other, q) ∈ s.parties := by
      intro hrest
      refine ⟨?_, by rw [hparties]; exact mem_of_mem_removed hrest⟩
      rintro rfl
      have hnot := (List.nodup_middle.mp hnodup).notMem
      rw [← List.map_append] at hnot
      exact hnot (List.mem_map.mpr ⟨_, hrest, rfl⟩)
    rcases List.mem_append.mp hmem with hmem | hmem
    · exact .inl (hrest (List.mem_append_left _ hmem))
    · rcases List.mem_cons.mp hmem with heq | hmem
      · exact .inr (Prod.mk.inj heq)
      · exact .inl (hrest (List.mem_append_right _ hmem))
  refine ⟨?_, fun {other q} hmem => ?_, fun {other q} hmem => ?_, fun other hother => ?_⟩
  · show ((before ++ (id, p') :: after).map Prod.fst).Nodup
    rwa [List.map_append, List.map_cons]
  · rcases hcases hmem with ⟨hne, hmem⟩ | ⟨rfl, rfl⟩
    · show Used (view store' other)
      rw [hP.step_frame h hne]
      exact hs.used hmem
    · exact hused
  · rcases hcases hmem with ⟨hne, hmem⟩ | ⟨rfl, rfl⟩
    · show I _ (view store' other) other q
      rw [hP.step_frame h hne, actionsOf_concat_of_ne hne.symm]
      exact hs.inv hmem
    · rw [actionsOf_concat_self]
      exact hstep (hs.used hold) (hs.inv hold) h
  · have hid : other ≠ id := by
      rintro rfl
      exact hother hused
    rw [actionsOf_concat_of_ne hid.symm]
    apply hs.unused
    rwa [← hP.step_frame h hid]

/-- **The rule for side by side parties.** What joining establishes and a party's own steps keep
holds of every party in every reachable state. -/
theorem run_sound (hP : P.Separated view Used)
    (hjoin : ∀ {store id a store' p}, P.join store id a store' p → I [a] (view store' id) id p)
    (hstep : ∀ {store id p a store' p' past}, Used (view store id) →
      I past (view store id) id p → P.step store id p a store' p' →
      I (past ++ [a]) (view store' id) id p')
    {store : σ} {s : System σ ι π} (h : Run P.Step (.init store) trace s) :
    Sound view Used I trace s := by
  refine h.trace_invariant (fun hs hmove => ?_) ⟨List.nodup_nil, ?_, ?_, fun _ _ => rfl⟩
  · cases hmove with
    | joined h => exact hs.joined hP hjoin h
    | moved before after hparties h => exact hs.moved hP hstep hparties h
  · exact fun hmem => absurd hmem List.not_mem_nil
  · exact fun hmem => absurd hmem List.not_mem_nil

end Protocol.Separated

/-! ## Two protocols over one store -/

variable {ρ : Type} {β : Type v}

inductive SumJoin (P : Protocol σ ι π α) (Q : Protocol σ ι ρ β) (store : σ) (id : ι) :
    α ⊕ β → σ → π ⊕ ρ → Prop
  | inl {a : α} {store' : σ} {p : π} (h : P.join store id a store' p) :
      SumJoin P Q store id (.inl a) store' (.inl p)
  | inr {b : β} {store' : σ} {q : ρ} (h : Q.join store id b store' q) :
      SumJoin P Q store id (.inr b) store' (.inr q)

inductive SumStep (P : Protocol σ ι π α) (Q : Protocol σ ι ρ β) (store : σ) (id : ι) :
    π ⊕ ρ → α ⊕ β → σ → π ⊕ ρ → Prop
  | inl {p p' : π} {a : α} {store' : σ} (h : P.step store id p a store' p') :
      SumStep P Q store id (.inl p) (.inl a) store' (.inl p')
  | inr {q q' : ρ} {b : β} {store' : σ} (h : Q.step store id q b store' q') :
      SumStep P Q store id (.inr q) (.inr b) store' (.inr q')

/-- The parties of two protocols side by side, each of which goes on by its own. -/
def Protocol.sum (P : Protocol σ ι π α) (Q : Protocol σ ι ρ β) :
    Protocol σ ι (π ⊕ ρ) (α ⊕ β) :=
  ⟨SumJoin P Q, SumStep P Q⟩

namespace Protocol.Separated
variable {P : Protocol σ ι π α} {Q : Protocol σ ι ρ β} {view : σ → ι → ν} {Used : ν → Prop}

theorem sum (hP : P.Separated view Used) (hQ : Q.Separated view Used) :
    (P.sum Q).Separated view Used where
  join_unused h := by
    cases h with
    | inl h => exact hP.join_unused h
    | inr h => exact hQ.join_unused h
  join_used h := by
    cases h with
    | inl h => exact hP.join_used h
    | inr h => exact hQ.join_used h
  step_used h := by
    cases h with
    | inl h => exact hP.step_used h
    | inr h => exact hQ.step_used h
  join_frame h := by
    cases h with
    | inl h => exact hP.join_frame h
    | inr h => exact hQ.join_frame h
  step_frame h := by
    cases h with
    | inl h => exact hP.step_frame h
    | inr h => exact hQ.step_frame h

/-- The history of a party of a sum is one of its own protocol, with its invariant. -/
def SumInv (I : List α → ν → ι → π → Prop) (J : List β → ν → ι → ρ → Prop)
    (past : List (α ⊕ β)) (v : ν) (id : ι) : π ⊕ ρ → Prop
  | .inl p => ∃ own, past = own.map .inl ∧ I own v id p
  | .inr q => ∃ own, past = own.map .inr ∧ J own v id q

/-- **The rule for two protocols.** The parties of each keep their own invariant. -/
theorem run_sum_sound [DecidableEq ι] {I : List α → ν → ι → π → Prop}
    {J : List β → ν → ι → ρ → Prop} (hP : P.Separated view Used) (hQ : Q.Separated view Used)
    (hjoinP : ∀ {store id a store' p}, P.join store id a store' p → I [a] (view store' id) id p)
    (hstepP : ∀ {store id p a store' p' past}, Used (view store id) →
      I past (view store id) id p → P.step store id p a store' p' →
      I (past ++ [a]) (view store' id) id p')
    (hjoinQ : ∀ {store id b store' q}, Q.join store id b store' q → J [b] (view store' id) id q)
    (hstepQ : ∀ {store id q b store' q' past}, Used (view store id) →
      J past (view store id) id q → Q.step store id q b store' q' →
      J (past ++ [b]) (view store' id) id q')
    {store : σ} {trace : List (ι × (α ⊕ β))} {s : System σ ι (π ⊕ ρ)}
    (h : Run (P.sum Q).Step (.init store) trace s) : Sound view Used (SumInv I J) trace s := by
  refine (hP.sum hQ).run_sound (fun hjoin => ?_) (fun hused hinv hstep => ?_) h
  · cases hjoin with
    | inl hjoin => exact ⟨[_], rfl, hjoinP hjoin⟩
    | inr hjoin => exact ⟨[_], rfl, hjoinQ hjoin⟩
  · cases hstep with
    | inl hstep =>
      obtain ⟨own, rfl, hown⟩ := hinv
      exact ⟨own ++ [_], by rw [List.map_append, List.map_singleton], hstepP hused hown hstep⟩
    | inr hstep =>
      obtain ⟨own, rfl, hown⟩ := hinv
      exact ⟨own ++ [_], by rw [List.map_append, List.map_singleton], hstepQ hused hown hstep⟩

end Protocol.Separated

/-! ## What each protocol did -/

def leftTrace (trace : List (ι × (α ⊕ β))) : List (ι × α) :=
  trace.filterMap fun l => l.2.getLeft?.map (Prod.mk l.1)

def rightTrace (trace : List (ι × (α ⊕ β))) : List (ι × β) :=
  trace.filterMap fun l => l.2.getRight?.map (Prod.mk l.1)

section
variable [DecidableEq ι] {id : ι} {trace : List (ι × (α ⊕ β))}

theorem actionsOf_leftTrace {own : List α} (h : actionsOf id trace = own.map .inl) :
    actionsOf id (leftTrace trace) = own := by
  have hcomm : actionsOf id (leftTrace trace) = (actionsOf id trace).filterMap Sum.getLeft? := by
    clear h
    induction trace with
    | nil => rfl
    | cons l trace ih =>
      rw [actionsOf_cons]
      rcases l with ⟨id', a | b⟩
      · show actionsOf id ((id', a) :: leftTrace trace) = _
        rw [actionsOf_cons, ih]
        split <;> rfl
      · show actionsOf id (leftTrace trace) = _
        rw [ih]
        split <;> rfl
  rw [hcomm, h, List.filterMap_map]
  exact List.filterMap_some

theorem actionsOf_rightTrace {own : List β} (h : actionsOf id trace = own.map .inr) :
    actionsOf id (rightTrace trace) = own := by
  have hcomm : actionsOf id (rightTrace trace) = (actionsOf id trace).filterMap Sum.getRight? := by
    clear h
    induction trace with
    | nil => rfl
    | cons l trace ih =>
      rw [actionsOf_cons]
      rcases l with ⟨id', a | b⟩
      · show actionsOf id (rightTrace trace) = _
        rw [ih]
        split <;> rfl
      · show actionsOf id ((id', b) :: rightTrace trace) = _
        rw [actionsOf_cons, ih]
        split <;> rfl
  rw [hcomm, h, List.filterMap_map]
  exact List.filterMap_some

end

end RagEval.Lib.Parties
