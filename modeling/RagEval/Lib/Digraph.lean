import Mathlib.Data.List.Count
import Mathlib.Data.List.Nodup
import Mathlib.Data.Set.Finite.List
import Mathlib.Logic.Relation
import Mathlib.Order.WellFounded

/-!
# Finite multigraphs given by their edge list

Acyclicity, topological orders and reachability of a list of edges. Parallel
edges and self-loops are allowed, and edges are counted with multiplicity.

## Main results

- `acyclic_of_sorted` — an order that puts every source before its target
  excludes cycles
- `exists_source_of_acyclic` — in an acyclic graph every nonempty set of
  vertices has one without predecessors in the set
-/

namespace RagEval.Lib.Digraph

variable {V : Type*}

/-- There is an edge from `u` to `v`. -/
def Adj (edges : List (V × V)) (u v : V) : Prop := (u, v) ∈ edges

/-- No vertex reaches itself along one edge or more. -/
def Acyclic (edges : List (V × V)) : Prop := ∀ v, ¬Relation.TransGen (Adj edges) v v

/-- `v` is reached from `u` along a possibly empty path. -/
def Reachable (edges : List (V × V)) (u v : V) : Prop := Relation.ReflTransGen (Adj edges) u v

theorem Acyclic.irrefl {edges : List (V × V)} (h : Acyclic edges) (v : V) : (v, v) ∉ edges :=
  fun hm => h v (.single hm)

section Order
variable [DecidableEq V]

/-- Every edge goes forward in `order`. -/
def Sorted (edges : List (V × V)) (order : List V) : Prop :=
  ∀ u v, (u, v) ∈ edges → order.idxOf u < order.idxOf v

theorem Sorted.lt_of_transGen {edges : List (V × V)} {order : List V} (h : Sorted edges order)
    {u v : V} (huv : Relation.TransGen (Adj edges) u v) : order.idxOf u < order.idxOf v := by
  induction huv with
  | single hab => exact h _ _ hab
  | tail _ hbc ih => exact ih.trans (h _ _ hbc)

theorem acyclic_of_sorted {edges : List (V × V)} {order : List V} (h : Sorted edges order) :
    Acyclic edges := fun _ hv => Nat.lt_irrefl _ (h.lt_of_transGen hv)

/-- If each occurrence in `order` has its predecessors before it, edges into
`order` go forward. -/
theorem idxOf_lt_of_closed {edges : List (V × V)} {order : List V}
    (h : ∀ l₁ v l₂, order = l₁ ++ v :: l₂ → ∀ u, (u, v) ∈ edges → u ∈ l₁)
    {u v : V} (hv : v ∈ order) (he : (u, v) ∈ edges) : order.idxOf u < order.idxOf v := by
  obtain ⟨l₁, l₂, rfl, hnot⟩ := List.eq_append_cons_of_mem hv
  have hu : u ∈ l₁ := h l₁ v l₂ rfl u he
  have hlt : l₁.idxOf u < l₁.length := List.idxOf_lt_length_iff.mpr hu
  have hidx : (l₁ ++ v :: l₂).idxOf v = l₁.length := by
    rw [List.idxOf_append_of_notMem hnot, List.idxOf_cons_self, Nat.add_zero]
  rw [List.idxOf_append_of_mem hu, hidx]
  exact hlt

end Order

/-- A vertex whose predecessors are all there may come next. -/
theorem closed_snoc {edges : List (V × V)} {order : List V} {c : V}
    (h : ∀ l₁ v l₂, order = l₁ ++ v :: l₂ → ∀ u, (u, v) ∈ edges → u ∈ l₁)
    (hc : ∀ u, (u, c) ∈ edges → u ∈ order) :
    ∀ l₁ v l₂, order ++ [c] = l₁ ++ v :: l₂ → ∀ u, (u, v) ∈ edges → u ∈ l₁ := by
  intro l₁ v l₂ hsplit u hu
  rcases List.eq_nil_or_concat l₂ with rfl | ⟨l₂', b, rfl⟩
  · obtain ⟨rfl, hcv⟩ := List.append_inj' hsplit rfl
    obtain rfl : c = v := by simpa using hcv
    exact hc u hu
  · have happ : l₁ ++ v :: (l₂' ++ [b]) = (l₁ ++ v :: l₂') ++ [b] := by simp
    rw [List.concat_eq_append, happ] at hsplit
    exact h l₁ v l₂' (List.append_inj' hsplit rfl).1 u hu

/-- In an acyclic graph a nonempty finite set of vertices contains one with no
predecessor in the set. -/
theorem exists_source_of_acyclic {edges : List (V × V)} (h : Acyclic edges) {rest : List V}
    (hne : rest ≠ []) : ∃ v ∈ rest, ∀ u ∈ rest, (u, v) ∉ edges := by
  let r : {v // v ∈ rest} → {v // v ∈ rest} → Prop :=
    fun a b => Relation.TransGen (Adj edges) a.1 b.1
  have : Finite {v // v ∈ rest} := (List.finite_toSet rest).to_subtype
  have : IsTrans {v // v ∈ rest} r := ⟨fun _ _ _ => Relation.TransGen.trans⟩
  have : Std.Irrefl r := ⟨fun a => h a.1⟩
  have hwf : WellFounded r := Finite.wellFounded_of_trans_of_irrefl r
  obtain ⟨a, ha⟩ := List.exists_mem_of_ne_nil rest hne
  obtain ⟨m, -, hmin⟩ := hwf.has_min Set.univ ⟨⟨a, ha⟩, trivial⟩
  exact ⟨m.1, m.2, fun u hu he => hmin ⟨u, hu⟩ trivial (.single he)⟩

section Pending
variable [DecidableEq V]

/-- The targets of the edges out of `u`, in edge order. -/
def targets (edges : List (V × V)) (u : V) : List V :=
  (edges.filter (fun e => e.1 = u)).map Prod.snd

/-- The number of edges into `v` whose source is not in `done`. -/
def pending (edges : List (V × V)) (done : List V) (v : V) : Nat :=
  edges.countP (fun e => decide (e.2 = v ∧ e.1 ∉ done))

theorem mem_targets {edges : List (V × V)} {u v : V} : v ∈ targets edges u ↔ (u, v) ∈ edges := by
  simp [targets]

theorem targets_cons (a b : V) (rest : List (V × V)) (u : V) :
    targets ((a, b) :: rest) u = if a = u then b :: targets rest u else targets rest u := by
  by_cases ha : a = u <;> simp [targets, ha]

theorem pending_cons (a b : V) (rest : List (V × V)) (done : List V) (v : V) :
    pending ((a, b) :: rest) done v =
      pending rest done v + if b = v ∧ a ∉ done then 1 else 0 := by
  simp [pending, List.countP_cons]

theorem pending_eq_zero_iff {edges : List (V × V)} {done : List V} {v : V} :
    pending edges done v = 0 ↔ ∀ u, (u, v) ∈ edges → u ∈ done := by
  rw [pending, List.countP_eq_zero]
  constructor
  · intro h u hu
    by_contra hn
    exact h (u, v) hu (by simp [hn])
  · rintro h ⟨a, b⟩ hab
    simp only [decide_eq_true_eq, not_and, not_not]
    rintro rfl
    exact h a hab

/-- Processing `c` settles its edges: they leave the pending count of their
targets. -/
theorem pending_snoc (edges : List (V × V)) {done : List V} {c : V} (hc : c ∉ done) (v : V) :
    pending edges (done ++ [c]) v + (targets edges c).count v = pending edges done v := by
  induction edges with
  | nil => rfl
  | cons e rest ih =>
    obtain ⟨a, b⟩ := e
    rw [pending_cons, pending_cons, targets_cons, ← ih]
    by_cases ha : a = c
    · subst ha
      by_cases hb : b = v
      · simp [hb, hc, Nat.add_assoc]
      · simp [hb]
    · simp [ha, Nat.add_right_comm]

end Pending

end RagEval.Lib.Digraph
