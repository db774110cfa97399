import Mathlib.Data.List.Forall2
import RagEval.Lib.Runs

/-!
# Simulations

A relation between the states of two systems that every step of the one keeps by a step of the
other. Where the states hold lists of parties, one of which moves, the relation of the parties
that move is told from that of the others.

## Main results

- `Run.simulate` — a run of the one system is matched by a run of the other
- `Run.lockstep` — two runs side by side, whose labels agree on what comes in
- `forall₂_split_left`, `forall₂_split_right` — the partner of the party that moves
-/

namespace RagEval.Lib

universe u v
variable {σ τ : Type u} {ℓ ℓ' : Type v} {step : σ → ℓ → σ → Prop} {step' : τ → ℓ' → τ → Prop}

/-- `L` relates the labels of matching steps, `R` the states between them. -/
theorem Run.simulate {R : σ → τ → Prop} {L : ℓ → ℓ' → Prop}
    (hstep : ∀ {s l s' t}, R s t → step s l s' → ∃ l' t', L l l' ∧ step' t l' t' ∧ R s' t')
    {s s' : σ} {ls : List ℓ} (h : Run step s ls s') {t : τ} (hR : R s t) :
    ∃ ls' t', List.Forall₂ L ls ls' ∧ Run step' t ls' t' ∧ R s' t' := by
  induction h generalizing t with
  | nil s => exact ⟨[], t, .nil, .nil t, hR⟩
  | cons head tail ih =>
    obtain ⟨l', t', hl, hhead, hR'⟩ := hstep hR head
    obtain ⟨ls', u, hls, htail, hend⟩ := ih hR'
    exact ⟨l' :: ls', u, .cons hl hls, .cons hhead htail, hend⟩

/-- Two runs side by side: related states and related inputs give related outputs and states. -/
theorem Run.lockstep {R : σ → τ → Prop} {I O : ℓ → ℓ' → Prop}
    (hstep : ∀ {s l s' t l' t'}, R s t → I l l' → step s l s' → step' t l' t' →
      O l l' ∧ R s' t')
    {s s' : σ} {t t' : τ} {ls : List ℓ} {ls' : List ℓ'} (h : Run step s ls s')
    (h' : Run step' t ls' t') (hR : R s t) (hin : List.Forall₂ I ls ls') :
    List.Forall₂ O ls ls' ∧ R s' t' := by
  induction hin generalizing s t with
  | nil =>
    cases h
    cases h'
    exact ⟨.nil, hR⟩
  | cons hl hin ih =>
    cases h with
    | cons head tail =>
      cases h' with
      | cons head' tail' =>
        obtain ⟨hout, hR'⟩ := hstep hR hl head head'
        obtain ⟨houts, hend⟩ := ih tail tail' hR'
        exact ⟨.cons hout houts, hend⟩

/-- A run all whose labels have a property, as a run of the steps with that property. -/
theorem Run.with_labels {P : ℓ → Prop} {s s' : σ} {ls : List ℓ} (h : Run step s ls s')
    (hP : ∀ l ∈ ls, P l) : Run (fun s l s' => step s l s' ∧ P l) s ls s' := by
  induction h with
  | nil s => exact .nil s
  | cons head tail ih =>
    rw [List.forall_mem_cons] at hP
    exact .cons ⟨head, hP.1⟩ (ih hP.2)

section Parties
variable {α β : Type*} {P : α → β → Prop}

theorem forall₂_split_left {before after : List α} {a : α} {l : List β}
    (h : List.Forall₂ P (before ++ a :: after) l) :
    ∃ before' b after', l = before' ++ b :: after' ∧ List.Forall₂ P before before' ∧ P a b ∧
      List.Forall₂ P after after' := by
  induction before generalizing l with
  | nil =>
    obtain ⟨b, after', hab, hafter, rfl⟩ := List.forall₂_cons_left_iff.mp h
    exact ⟨[], b, after', rfl, .nil, hab, hafter⟩
  | cons c before ih =>
    obtain ⟨c', l', hc, hl', rfl⟩ := List.forall₂_cons_left_iff.mp h
    obtain ⟨before', b, after', rfl, hbefore, hab, hafter⟩ := ih hl'
    exact ⟨c' :: before', b, after', rfl, .cons hc hbefore, hab, hafter⟩

theorem forall₂_split_right {before after : List β} {b : β} {l : List α}
    (h : List.Forall₂ P l (before ++ b :: after)) :
    ∃ before' a after', l = before' ++ a :: after' ∧ List.Forall₂ P before' before ∧ P a b ∧
      List.Forall₂ P after' after := by
  obtain ⟨before', a, after', rfl, hbefore, hab, hafter⟩ := forall₂_split_left h.flip
  exact ⟨before', a, after', rfl, hbefore.flip, hab, hafter.flip⟩

theorem forall₂_join {before after : List α} {before' after' : List β} {a : α} {b : β}
    (hbefore : List.Forall₂ P before before') (hab : P a b) (hafter : List.Forall₂ P after after') :
    List.Forall₂ P (before ++ a :: after) (before' ++ b :: after') :=
  List.rel_append hbefore (.cons hab hafter)

end Parties

end RagEval.Lib
