import Mathlib.Tactic.Cases

/-!
# Runs of a labelled step relation

`Run step s labels t` holds when the steps with the given labels lead from `s`
to `t`. An invariant of a system is proved of its steps once and then holds
along every run; a condition on the steps of a run is a smaller step relation.

## Main results

- `Run.invariant` — what every step keeps, every run keeps
- `Run.invariant_of_labels` — what steps with certain labels keep, runs of them keep
- `Run.trace_invariant` — the same for invariants of the history and the state
- `Run.exists_turn` — the step in which something comes to hold
- `Run.append_iff`, `Run.cons_iff` — a run split at one of its labels
-/

namespace RagEval.Lib

universe u v
variable {σ : Type u} {ℓ : Type v} {step : σ → ℓ → σ → Prop}

inductive Run (step : σ → ℓ → σ → Prop) : σ → List ℓ → σ → Prop
  | nil (s : σ) : Run step s [] s
  | cons {s t u : σ} {l : ℓ} {ls : List ℓ} (head : step s l t) (tail : Run step t ls u) :
      Run step s (l :: ls) u

namespace Run

theorem single {s t : σ} {l : ℓ} (h : step s l t) : Run step s [l] t :=
  cons h (nil t)

theorem append {s t u : σ} {ls ls' : List ℓ} (h : Run step s ls t) (h' : Run step t ls' u) :
    Run step s (ls ++ ls') u := by
  induction h with
  | nil => exact h'
  | cons head tail ih => exact cons head (ih h')

theorem append_iff {s u : σ} {ls ls' : List ℓ} :
    Run step s (ls ++ ls') u ↔ ∃ t, Run step s ls t ∧ Run step t ls' u := by
  constructor
  · intro h
    induction ls generalizing s with
    | nil => exact ⟨s, nil s, h⟩
    | cons l ls ih =>
      cases h with
      | cons head tail =>
        obtain ⟨t, hleft, hright⟩ := ih tail
        exact ⟨t, cons head hleft, hright⟩
  · rintro ⟨t, h, h'⟩
    exact h.append h'

theorem cons_iff {s u : σ} {l : ℓ} {ls : List ℓ} :
    Run step s (l :: ls) u ↔ ∃ t, step s l t ∧ Run step t ls u := by
  constructor
  · intro h
    cases h with
    | cons head tail => exact ⟨_, head, tail⟩
  · rintro ⟨t, head, tail⟩
    exact cons head tail

/-- A run is empty or starts with a step. -/
theorem head_cases {s u : σ} {ls : List ℓ} (h : Run step s ls u) :
    (ls = [] ∧ s = u) ∨ ∃ l t ls', ls = l :: ls' ∧ step s l t ∧ Run step t ls' u := by
  cases h with
  | nil => exact Or.inl ⟨rfl, rfl⟩
  | cons head tail => exact Or.inr ⟨_, _, _, rfl, head, tail⟩

/-- What every step keeps, every run keeps. -/
theorem invariant {I : σ → Prop} (hstep : ∀ {s l t}, I s → step s l t → I t) {s t : σ}
    {ls : List ℓ} (h : Run step s ls t) (hI : I s) : I t := by
  induction h with
  | nil => exact hI
  | cons head tail ih => exact ih (hstep hI head)

/-- What comes to hold in a run, comes to hold in one of its steps. -/
theorem exists_turn {P : σ → Prop} {s t : σ} {ls : List ℓ} (h : Run step s ls t) (hs : ¬P s)
    (ht : P t) : ∃ l ∈ ls, ∃ u v, step u l v ∧ ¬P u ∧ P v := by
  induction h with
  | nil => exact absurd ht hs
  | @cons s u t l ls head tail ih =>
    by_cases hu : P u
    · exact ⟨l, List.mem_cons_self, s, u, head, hs, hu⟩
    · obtain ⟨l', hl', hstep⟩ := ih hu ht
      exact ⟨l', List.mem_cons_of_mem _ hl', hstep⟩

/-- What every step whose label satisfies `P` keeps, a run of such labels keeps. -/
theorem invariant_of_labels {P : ℓ → Prop} {I : σ → Prop}
    (hstep : ∀ {s l t}, P l → I s → step s l t → I t) {s t : σ} {ls : List ℓ}
    (h : Run step s ls t) (hP : ∀ l ∈ ls, P l) (hI : I s) : I t := by
  induction h with
  | nil => exact hI
  | cons head tail ih =>
    rw [List.forall_mem_cons] at hP
    exact ih hP.2 (hstep hP.1 hI head)

/-- An invariant of the labels so far and the state. -/
theorem trace_invariant {I : List ℓ → σ → Prop}
    (hstep : ∀ {ls s l t}, I ls s → step s l t → I (ls ++ [l]) t) {s t : σ} {ls : List ℓ}
    (h : Run step s ls t) (hI : I [] s) : I ls t := by
  suffices hpast : ∀ {past : List ℓ}, I past s → I (past ++ ls) t from hpast hI
  clear hI
  induction h with
  | nil s =>
    intro past hpast
    rwa [List.append_nil]
  | cons head tail ih =>
    intro past hpast
    rw [List.append_cons]
    exact ih (hstep hpast head)

/-- What an invariant says of the label of every step holds of all labels of a run. -/
theorem forall_labels {I : σ → Prop} {P : ℓ → Prop}
    (hstep : ∀ {s l t}, I s → step s l t → P l ∧ I t) {s t : σ} {ls : List ℓ}
    (h : Run step s ls t) (hI : I s) : ∀ l ∈ ls, P l := by
  induction h with
  | nil => simp
  | cons head tail ih =>
    rw [List.forall_mem_cons]
    exact ⟨(hstep hI head).1, ih (hstep hI head).2⟩

/-- Executing a transition function on a list of labels gives a run. -/
theorem of_foldlM {f : σ → ℓ → Option σ} {P : ℓ → Prop}
    (hstep : ∀ {s l t}, P l → f s l = some t → step s l t) {s u : σ} {ls : List ℓ}
    (h : ls.foldlM f s = some u) (hP : ∀ l ∈ ls, P l) : Run step s ls u := by
  induction ls generalizing s with
  | nil =>
    obtain rfl := Option.some.inj h
    exact nil s
  | cons l ls ih =>
    rw [List.foldlM_cons] at h
    obtain ⟨t, ht, hrest⟩ := Option.bind_eq_some_iff.mp h
    rw [List.forall_mem_cons] at hP
    exact cons (hstep hP.1 ht) (ih hrest hP.2)

/-- A step relation that allows more steps has more runs. -/
theorem mono {step' : σ → ℓ → σ → Prop} (hmono : ∀ {s l t}, step s l t → step' s l t) {s t : σ}
    {ls : List ℓ} (h : Run step s ls t) : Run step' s ls t := by
  induction h with
  | nil s => exact nil s
  | cons head tail ih => exact cons (hmono head) ih

/-- A run whose steps, on the states of an invariant, are steps of another relation is
a run of that relation. -/
theorem of_invariant {step' : σ → ℓ → σ → Prop} {I : σ → Prop}
    (hstep : ∀ {s l t}, I s → step s l t → step' s l t ∧ I t) {s t : σ} {ls : List ℓ}
    (h : Run step s ls t) (hI : I s) : Run step' s ls t := by
  induction h with
  | nil s => exact nil s
  | cons head tail ih => exact cons (hstep hI head).1 (ih (hstep hI head).2)

/-- Two step relations that agree on the states of an invariant have the same runs
from them. -/
theorem congr {step' : σ → ℓ → σ → Prop} {I : σ → Prop}
    (hiff : ∀ {s l t}, I s → (step s l t ↔ step' s l t))
    (hkeep : ∀ {s l t}, I s → step s l t → I t) {s t : σ} {ls : List ℓ} (hI : I s) :
    Run step s ls t ↔ Run step' s ls t := by
  constructor
  · intro h
    refine h.of_invariant (I := I) (fun hs hstep => ?_) hI
    exact ⟨(hiff hs).mp hstep, hkeep hs hstep⟩
  · intro h
    refine h.of_invariant (I := I) (fun hs hstep => ?_) hI
    have hstep' := (hiff hs).mpr hstep
    exact ⟨hstep', hkeep hs hstep'⟩

end Run

/-! ## Parties in a list

One of the parties of a system moves on, or leaves. -/

theorem forall_replace {α : Type} {P : α → Prop} {before after : List α} {old new : α}
    (h : ∀ c ∈ before ++ old :: after, P c) (hnew : P old → P new) :
    ∀ c ∈ before ++ new :: after, P c := by
  rw [List.forall_mem_append, List.forall_mem_cons] at h ⊢
  exact ⟨h.1, hnew h.2.1, h.2.2⟩

theorem forall_remove {α : Type} {P : α → Prop} {before after : List α} {old : α}
    (h : ∀ c ∈ before ++ old :: after, P c) : ∀ c ∈ before ++ after, P c := by
  rw [List.forall_mem_append, List.forall_mem_cons] at h
  rw [List.forall_mem_append]
  exact ⟨h.1, h.2.2⟩

theorem mem_of_mem_removed {α : Type} {before after : List α} {c old : α}
    (h : c ∈ before ++ after) : c ∈ before ++ old :: after := by
  rw [List.mem_append] at h ⊢
  exact h.imp_right (List.mem_cons_of_mem _)

theorem mem_split {α : Type} {before after : List α} {c : α} {l : List α}
    (h : l = before ++ c :: after) : c ∈ l := by
  rw [h]
  exact List.mem_append_right _ (List.mem_cons_self ..)

end RagEval.Lib
