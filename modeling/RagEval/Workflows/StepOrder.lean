import RagEval.Lib.Digraph
import RagEval.Workflows.Schemas

/-!
# Correctness of the step order

`get_step_order` is a topological sort of the multigraph of edges. The loop
invariant counts, for every step id, the edges whose source is not processed
yet; an id is enqueued when its count reaches zero.

## Main results

- `getStepOrder_correct` — the sort returns exactly on distinct ids and acyclic
  edges, raises `ValueError` otherwise, and what it returns is sorted
-/

namespace RagEval.Workflows.WorkflowDefinition
open RagEval.Lib RagEval.Lib.Digraph

/-- One edge adds its target to the list of its source and one to the in-degree of its target. -/
theorem addEdge_spec {e : WorkflowEdge} {g : Dict String (List String)} {d : Dict String Int}
    (hf : e.fromStep ∈ g.keys) (ht : e.toStep ∈ d.keys) :
    ∃ g' d', addEdge (g, d) e = .ok (g', d') ∧ g'.keys = g.keys ∧ d'.keys = d.keys ∧
      (∀ v out, g.get? v = some out →
        g'.get? v = some (if e.fromStep = v then out ++ [e.toStep] else out)) ∧
      ∀ v (n : Int), d.get? v = some n → d'.get? v = some (n + if e.toStep = v then 1 else 0) := by
  obtain ⟨out, hout⟩ := (Dict.mem_keys_iff g _).mp hf
  obtain ⟨n, hn⟩ := (Dict.mem_keys_iff d _).mp ht
  refine ⟨g.set e.fromStep (out ++ [e.toStep]), d.set e.toStep (n + 1), ?_,
    Dict.keys_set_of_mem hf _, Dict.keys_set_of_mem ht _, fun v out' hv => ?_, fun v m hv => ?_⟩
  · simp only [addEdge, getItem_of_get? hout, getItem_of_get? hn, bind, Except.bind, pure,
      Except.pure]
  · by_cases he : e.fromStep = v
    · subst he
      rw [hout, Option.some.injEq] at hv
      subst hv
      simp
    · simp [he, hv]
  · by_cases he : e.toStep = v
    · subst he
      rw [hn, Option.some.injEq] at hv
      subst hv
      simp
    · simp [he, hv]

/-- Building the adjacency lists and in-degrees edge by edge. -/
theorem foldlM_addEdge (es : List WorkflowEdge) {g : Dict String (List String)}
    {d : Dict String Int} (hkeys : ∀ e ∈ es, e.fromStep ∈ g.keys ∧ e.toStep ∈ d.keys) :
    ∃ g' d', es.foldlM addEdge (g, d) = .ok (g', d') ∧ g'.keys = g.keys ∧ d'.keys = d.keys ∧
      (∀ v out, g.get? v = some out →
        g'.get? v = some (out ++ targets (es.map WorkflowEdge.pair) v)) ∧
      (∀ v (n : Int), d.get? v = some n →
        d'.get? v = some (n + pending (es.map WorkflowEdge.pair) [] v)) := by
  induction es generalizing g d with
  | nil => exact ⟨g, d, rfl, rfl, rfl, by simp [targets], by simp [pending]⟩
  | cons e rest ih =>
    rw [List.forall_mem_cons] at hkeys
    obtain ⟨⟨hf, ht⟩, hrest⟩ := hkeys
    obtain ⟨g₁, d₁, hstep, hg, hd, hg₁, hd₁⟩ := addEdge_spec hf ht
    obtain ⟨g', d', hr, hgk, hdk, hg', hd'⟩ := ih (g := g₁) (d := d₁) (by rw [hg, hd]; exact hrest)
    refine ⟨g', d', ?_, hgk.trans hg, hdk.trans hd, fun v out hv => ?_, fun v n hv => ?_⟩
    · rw [List.foldlM_cons, hstep]
      exact hr
    · rw [List.map_cons, WorkflowEdge.pair, targets_cons, hg' v _ (hg₁ v out hv)]
      by_cases he : e.fromStep = v
      · rw [if_pos he, if_pos he, List.append_assoc, List.singleton_append]
      · rw [if_neg he, if_neg he]
    · rw [List.map_cons, WorkflowEdge.pair, pending_cons, hd' v _ (hd₁ v n hv)]
      by_cases he : e.toStep = v
      · simp only [he, List.not_mem_nil, not_false_eq_true, and_self, if_true, Option.some.injEq]
        omega
      · simp [he]

/-- The in-degrees with one edge into `n` less. -/
def lowered (f : String → Nat) (n v : String) : Nat := if n = v then f n - 1 else f v

theorem count_le_lowered {f : String → Nat} {n : String} {rest : List String}
    (hf : ∀ v, (n :: rest).count v ≤ f v) (v : String) : rest.count v ≤ lowered f n v := by
  have hv := hf v
  rw [List.count_cons] at hv
  by_cases he : n = v
  · subst he
    simp only [lowered, if_true, beq_self_eq_true] at hv ⊢
    omega
  · simpa [lowered, he] using hv

theorem lowered_sub_count (f : String → Nat) (n : String) (rest : List String) (v : String) :
    lowered f n v - rest.count v = f v - (n :: rest).count v := by
  rw [List.count_cons]
  by_cases he : n = v
  · subst he
    simp only [lowered, if_true, beq_self_eq_true]
    omega
  · simp [lowered, he]

/-- Spec of one neighbour: its in-degree is one less, and it is enqueued if that was the last. -/
theorem relax_spec {d : Dict String Int} {f : String → Nat} {n : String} (hn : n ∈ d.keys)
    (hd : ∀ v ∈ d.keys, d.get? v = some (f v : Int)) (hpos : 1 ≤ f n) (q : List String) :
    ∃ d', relax (d, q) n = .ok (d', q ++ if f n = 1 then [n] else []) ∧ d'.keys = d.keys ∧
      ∀ v ∈ d.keys, d'.get? v = some (lowered f n v : Int) := by
  refine ⟨d.set n ((f n : Int) - 1), ?_, Dict.keys_set_of_mem hn _, fun v hv => ?_⟩
  · simp only [relax, getItem_of_get? (hd n hn), bind, Except.bind, pure, Except.pure]
    by_cases hlast : f n = 1
    · simp [hlast]
    · have hmore : ¬(f n : Int) - 1 = 0 := by omega
      simp [hlast, hmore]
  · by_cases he : n = v
    · subst he
      simp only [Dict.get?_set, if_true, lowered, Option.some.injEq]
      omega
    · simp only [Dict.get?_set, if_neg he, lowered]
      exact hd v hv

/-- Spec of the loop over the neighbours: it lowers each in-degree by the
neighbour's multiplicity and enqueues the neighbours that reach zero, once each. -/
theorem foldlM_relax (ns : List String) {d : Dict String Int} {q : List String} {f : String → Nat}
    (hkeys : ∀ v ∈ ns, v ∈ d.keys) (hd : ∀ v ∈ d.keys, d.get? v = some (f v : Int))
    (hf : ∀ v, ns.count v ≤ f v) :
    ∃ d' new, ns.foldlM relax (d, q) = .ok (d', q ++ new) ∧ d'.keys = d.keys ∧
      (∀ v ∈ d.keys, d'.get? v = some ((f v - ns.count v : Nat) : Int)) ∧ new.Nodup ∧
      ∀ v, v ∈ new ↔ v ∈ ns ∧ f v = ns.count v := by
  induction ns generalizing d q f with
  | nil => exact ⟨d, [], by simp [pure, Except.pure], rfl, by simpa using hd, by simp, by simp⟩
  | cons n rest ih =>
    rw [List.forall_mem_cons] at hkeys
    obtain ⟨hn, hrest⟩ := hkeys
    have hfn : rest.count n + 1 ≤ f n := by simpa using hf n
    obtain ⟨d₁, hstep, hk, hd₁⟩ := relax_spec hn hd (by omega) q
    obtain ⟨d', new, hr, hdk, hd', hnew, hmem⟩ := ih (d := d₁)
      (q := q ++ if f n = 1 then [n] else []) (fun v hv => hk ▸ hrest v hv) (hk ▸ hd₁)
      (count_le_lowered hf)
    refine ⟨d', (if f n = 1 then [n] else []) ++ new, ?_, hdk.trans hk, ?_, ?_, ?_⟩
    · rw [List.foldlM_cons, hstep, ← List.append_assoc]
      exact hr
    · intro v hv
      rw [hd' v (hk ▸ hv), lowered_sub_count]
    · by_cases hlast : f n = 1
      · have hnot : n ∉ new := by
          intro hm
          have hc := List.count_pos_iff.mpr ((hmem n).mp hm).1
          omega
        simpa [hlast, hnot] using hnew
      · simpa [hlast] using hnew
    · intro v
      rw [List.mem_append, hmem, List.mem_cons, List.count_cons]
      by_cases he : n = v
      · subst he
        by_cases hm : n ∈ rest
        · have hc := List.count_pos_iff.mpr hm
          have hlast : ¬f n = 1 := by omega
          simp only [hlast, if_false, List.not_mem_nil, false_or, hm, true_and, or_true, lowered,
            if_true, beq_self_eq_true]
          omega
        · have hc := List.count_eq_zero.mpr hm
          by_cases hlast : f n = 1 <;> simp [hlast, hm, hc]
      · have he' : ¬v = n := fun h => he h.symm
        by_cases hlast : f n = 1 <;> simp [lowered, he, he', hlast]

/-- The invariant of `while queue` over the ids `nodes`: the in-degrees count the
edges from unprocessed ids, the ids at zero are exactly those enqueued or
processed, each once, and every processed id comes after its predecessors. -/
structure KahnInv (edges : List (String × String)) (nodes : List String) (s : KahnState) :
    Prop where
  keys : s.inDegree.keys = nodes
  nodup : (s.order ++ s.queue).Nodup
  degree : ∀ v ∈ nodes, s.inDegree.get? v = some (pending edges s.order v : Int)
  ready : ∀ v, v ∈ s.order ++ s.queue ↔ v ∈ nodes ∧ pending edges s.order v = 0
  closed : ∀ l₁ v l₂, s.order = l₁ ++ v :: l₂ → ∀ u, (u, v) ∈ edges → u ∈ l₁

theorem KahnInv.subset {edges : List (String × String)} {nodes : List String} {s : KahnState}
    (h : KahnInv edges nodes s) : s.order ++ s.queue ⊆ nodes :=
  fun v hv => ((h.ready v).mp hv).1

/-- While ids are enqueued, not all of them have been processed. -/
theorem KahnInv.length_order_lt {edges : List (String × String)} {nodes : List String}
    {s : KahnState} (h : KahnInv edges nodes s) (hq : s.queue ≠ []) :
    s.order.length < nodes.length := by
  have hlen := (h.nodup.subperm h.subset).length_le
  have hpos := List.length_pos_iff.mpr hq
  rw [List.length_append] at hlen
  omega

/-- Processing the first id keeps the invariant, if its edges are taken off the in-degrees and the
ids whose last edges these were are enqueued. -/
theorem KahnInv.process {edges : List (String × String)} {nodes : List String}
    {inDegree d' : Dict String Int} {c : String} {rest order new : List String}
    (h : KahnInv edges nodes ⟨inDegree, c :: rest, order⟩)
    (hknown : ∀ u v, (u, v) ∈ edges → v ∈ nodes) (hkeys : d'.keys = nodes)
    (hdegree : ∀ v ∈ nodes, d'.get? v = some (pending edges (order ++ [c]) v : Int))
    (hnew : new.Nodup)
    (hmem : ∀ v, v ∈ new ↔ v ∈ targets edges c ∧ pending edges order v = (targets edges c).count v) :
    KahnInv edges nodes ⟨d', rest ++ new, order ++ [c]⟩ := by
  obtain ⟨-, hnodup, -, hready, hclosed⟩ := h
  simp only at hnodup hready hclosed
  obtain ⟨-, hc0⟩ := (hready c).mp (by simp)
  have hcn : c ∉ order := by
    intro hm
    exact (List.disjoint_of_nodup_append hnodup) hm List.mem_cons_self
  have hsnoc := pending_snoc edges hcn
  have hzero : ∀ v, v ∈ new ↔ v ∈ targets edges c ∧ pending edges (order ++ [c]) v = 0 := by
    intro v
    have := hsnoc v
    rw [hmem]
    constructor
    · rintro ⟨ht, hv⟩
      exact ⟨ht, by omega⟩
    · rintro ⟨ht, hv⟩
      exact ⟨ht, by omega⟩
  refine ⟨hkeys, ?_, hdegree, ?_, ?_⟩
  · -- an id enqueued now had a positive count, so it was neither processed nor enqueued
    have hdisj : ∀ v ∈ order ++ c :: rest, v ∉ new := by
      intro v hv hvn
      obtain ⟨ht, he⟩ := (hmem v).mp hvn
      have hp := ((hready v).mp hv).2
      have := List.count_pos_iff.mpr ht
      omega
    have happ : order ++ [c] ++ (rest ++ new) = (order ++ c :: rest) ++ new := by simp
    rw [happ, List.nodup_append]
    exact ⟨hnodup, hnew, fun a ha b hb hab => hdisj a ha (hab ▸ hb)⟩
  · intro v
    dsimp only
    have happ : v ∈ order ++ [c] ++ (rest ++ new) ↔ v ∈ order ++ c :: rest ∨ v ∈ new := by
      simp [or_assoc]
    have hsv := hsnoc v
    rw [happ, hready, hzero]
    constructor
    · rintro (⟨hv, hp⟩ | ⟨ht, hp⟩)
      · exact ⟨hv, by omega⟩
      · exact ⟨hknown c v (mem_targets.mp ht), hp⟩
    · rintro ⟨hv, hp⟩
      by_cases ht : v ∈ targets edges c
      · exact Or.inr ⟨ht, hp⟩
      · have := List.count_eq_zero.mpr ht
        exact Or.inl ⟨hv, by omega⟩
  · exact closed_snoc hclosed fun u hu => pending_eq_zero_iff.mp hc0 u hu

/-- One round keeps the invariant and processes one more id. -/
theorem KahnInv.round {edges : List (String × String)} {nodes : List String}
    {graph : Dict String (List String)}
    (hgraph : ∀ v ∈ nodes, graph.get? v = some (targets edges v))
    (hknown : ∀ u v, (u, v) ∈ edges → v ∈ nodes) {s : KahnState} (h : KahnInv edges nodes s)
    (hq : s.queue ≠ []) :
    ∃ s', kahnRound graph s = .ok s' ∧ KahnInv edges nodes s' ∧
      nodes.length - s'.order.length < nodes.length - s.order.length := by
  have hlt := h.length_order_lt hq
  obtain ⟨inDegree, queue, order⟩ := s
  cases queue with
  | nil => exact absurd rfl hq
  | cons c rest =>
    have hkeys : inDegree.keys = nodes := h.keys
    have hc : c ∈ nodes := h.subset (List.mem_append_right order List.mem_cons_self)
    have hcn : c ∉ order := fun hm => List.disjoint_of_nodup_append h.nodup hm List.mem_cons_self
    have hsnoc := pending_snoc edges hcn
    obtain ⟨d', new, hr, hdk, hd', hnew, hmem⟩ := foldlM_relax (targets edges c)
      (d := inDegree) (q := rest) (f := pending edges order)
      (fun v hv => by rw [hkeys]; exact hknown c v (mem_targets.mp hv))
      (fun v hv => h.degree v (hkeys ▸ hv)) (fun v => by have := hsnoc v; omega)
    have hdegree : ∀ v ∈ nodes, d'.get? v = some (pending edges (order ++ [c]) v : Int) := by
      intro v hv
      have := hsnoc v
      rw [hd' v (hkeys ▸ hv), Option.some.injEq]
      omega
    refine ⟨⟨d', rest ++ new, order ++ [c]⟩, ?_,
      h.process hknown (hdk.trans hkeys) hdegree hnew hmem, ?_⟩
    · simp only [kahnRound, getItem_of_get? (hgraph c hc), bind, Except.bind, hr, pure, Except.pure]
    · dsimp only at hlt
      simp only [List.length_append, List.length_cons, List.length_nil]
      omega

variable {α : Type}

theorem mem_graph {wf : WorkflowDefinition α} {u v : String} :
    (u, v) ∈ wf.graph ↔ ∃ e ∈ wf.edges, e.fromStep = u ∧ e.toStep = v := by
  simp [graph, WorkflowEdge.pair]

theorem EdgesKnown.mem {wf : WorkflowDefinition α} (h : wf.EdgesKnown) {u v : String}
    (he : (u, v) ∈ wf.graph) : u ∈ wf.stepIds ∧ v ∈ wf.stepIds := by
  obtain ⟨e, hm, rfl, rfl⟩ := mem_graph.mp he
  exact h e hm

/-- **The loop**: on known edges the sort reaches its final test with all and only
the ids it could process. -/
theorem getStepOrder_run {wf : WorkflowDefinition α} (h : wf.EdgesKnown) :
    ∃ nodes s, nodes.Nodup ∧ (∀ v, v ∈ nodes ↔ v ∈ wf.stepIds) ∧ KahnInv wf.graph nodes s ∧
      s.queue = [] ∧ wf.getStepOrder = if s.order.length ≠ wf.steps.length then
        .error (.valueError "Workflow contains cycles") else .ok s.order := by
  have hk : ∀ e ∈ wf.edges, e.fromStep ∈ (Dict.ofKeys wf.stepIds ([] : List String)).keys ∧
      e.toStep ∈ (Dict.ofKeys wf.stepIds (0 : Int)).keys := by
    simpa only [Dict.mem_keys_ofKeys, EdgesKnown] using h
  obtain ⟨g, d, hr, hgk, hdk, hg, hd⟩ := foldlM_addEdge wf.edges hk
  have hnodes : ∀ v, v ∈ d.keys ↔ v ∈ wf.stepIds := by
    intro v
    rw [hdk, Dict.mem_keys_ofKeys]
  have hgraph : ∀ v ∈ d.keys, g.get? v = some (targets wf.graph v) := by
    intro v hv
    have := hg v [] (by rw [Dict.get?_ofKeys, if_pos ((hnodes v).mp hv)])
    simpa [graph] using this
  have hdegree : ∀ v ∈ d.keys, d.get? v = some (pending wf.graph [] v : Int) := by
    intro v hv
    have := hd v 0 (by rw [Dict.get?_ofKeys, if_pos ((hnodes v).mp hv)])
    simpa [graph] using this
  let queue := (d.items.filter fun kv => kv.2 = 0).map Prod.fst
  have hqueue : ∀ v, v ∈ queue ↔ v ∈ d.keys ∧ pending wf.graph [] v = 0 := by
    intro v
    have hv0 : v ∈ queue ↔ d.get? v = some 0 := by
      simp [queue, Dict.get?_eq_some_iff]
    rw [hv0]
    constructor
    · intro hn
      have hv := Dict.mem_keys_of_get? hn
      rw [hdegree v hv, Option.some.injEq] at hn
      exact ⟨hv, by omega⟩
    · rintro ⟨hv, hp⟩
      rw [hdegree v hv, hp]
      rfl
  have hinv : KahnInv wf.graph d.keys ⟨d, queue, []⟩ :=
    { keys := rfl
      nodup := d.nodup_keys.sublist (List.filter_sublist.map Prod.fst)
      degree := hdegree
      ready := hqueue
      closed := by
        intro l₁ v l₂ hsplit
        simp at hsplit }
  obtain ⟨s, hs, hsi, hsq⟩ := whileLoop_ok (fun s : KahnState => !s.queue.isEmpty)
    (kahnRound g) (KahnInv wf.graph d.keys) (fun s => d.keys.length - s.order.length)
    (fun s hI hc => hI.round hgraph (fun u v he => (hnodes v).mpr (h.mem he).2) (by simpa using hc))
    hinv (le_refl _)
  have hbudget : d.keys.length = d.items.length := List.length_map _
  refine ⟨d.keys, s, d.keys_nodup, hnodes, hsi, by simpa using hsq, ?_⟩
  simp only [getStepOrder, hr, bind, Except.bind]
  rw [← hbudget, show d.keys.length = d.keys.length - ([] : List String).length from rfl, hs]
  simp only [pure, Except.pure]
  split <;> rfl

/-- If nothing can be processed any more, acyclicity leaves no id behind. -/
theorem KahnInv.complete {edges : List (String × String)} {nodes : List String} {s : KahnState}
    (h : KahnInv edges nodes s) (hq : s.queue = []) (hknown : ∀ u v, (u, v) ∈ edges → u ∈ nodes)
    (hacyc : Acyclic edges) : nodes ⊆ s.order := by
  by_contra hsub
  have hrest : nodes.filter (fun v => v ∉ s.order) ≠ [] := by
    intro he
    refine hsub fun v hv => ?_
    by_contra hn
    have hm : v ∈ nodes.filter (fun v => v ∉ s.order) := by simp [hv, hn]
    exact List.not_mem_nil (he ▸ hm)
  obtain ⟨v, hv, hsource⟩ := exists_source_of_acyclic hacyc hrest
  simp only [List.mem_filter, decide_eq_true_eq] at hv hsource
  refine hv.2 ?_
  have hp : pending edges s.order v = 0 := by
    rw [pending_eq_zero_iff]
    intro u hu
    by_contra hn
    exact hsource u ⟨hknown u v hu, hn⟩ hu
  simpa [hq] using (h.ready v).mpr ⟨hv.1, hp⟩

/-- On known edges the sort either returns a sorted list of all the ids, which are
then distinct and the edges acyclic, or raises `ValueError`, and then one of the two
fails. -/
theorem getStepOrder_cases {wf : WorkflowDefinition α} (h : wf.EdgesKnown) :
    (∃ order, wf.getStepOrder = .ok order ∧ (wf.stepIds.Nodup ∧ Acyclic wf.graph) ∧
        order.Nodup ∧ (∀ id, id ∈ order ↔ id ∈ wf.stepIds) ∧ Sorted wf.graph order) ∨
      wf.getStepOrder = .error (.valueError "Workflow contains cycles") ∧
        ¬(wf.stepIds.Nodup ∧ Acyclic wf.graph) := by
  obtain ⟨nodes, s, hnd, hmem, hinv, hq, hrun⟩ := getStepOrder_run h
  have hond : s.order.Nodup := by simpa [hq] using hinv.nodup
  have hosub : s.order ⊆ nodes := by simpa [hq] using hinv.subset
  have hnsub : nodes ⊆ wf.stepIds := fun v hv => (hmem v).mp hv
  have hids : wf.stepIds.length = wf.steps.length := List.length_map _
  have hlen₁ := (hond.subperm hosub).length_le
  have hlen₂ := (hnd.subperm hnsub).length_le
  have hsorted : nodes ⊆ s.order → Sorted wf.graph s.order := fun hcover u v he =>
    idxOf_lt_of_closed hinv.closed (hcover ((hmem v).mpr (h.mem he).2)) he
  by_cases hlen : s.order.length = wf.steps.length
  · -- the length test passes: no id was repeated or left behind
    have hp₁ := (hond.subperm hosub).perm_of_length_le (by omega)
    have hp₂ := (hnd.subperm hnsub).perm_of_length_le (by omega)
    have hcover : nodes ⊆ s.order := hp₁.symm.subset
    rw [if_neg (not_not.mpr hlen)] at hrun
    exact Or.inl ⟨s.order, hrun, ⟨hp₂.nodup_iff.mp hnd, acyclic_of_sorted (hsorted hcover)⟩, hond,
      fun id => ⟨fun hi => hnsub (hosub hi), fun hi => hcover ((hmem id).mpr hi)⟩, hsorted hcover⟩
  · rw [if_pos hlen] at hrun
    refine Or.inr ⟨hrun, ?_⟩
    rintro ⟨hdist, hacyc⟩
    have hcover := hinv.complete hq (fun u v he => (hmem u).mpr (h.mem he).1) hacyc
    have := (hdist.subperm fun v hv => hcover ((hmem v).mpr hv)).length_le
    omega

/-- **Correctness of the topological sort**, for edges that mention known ids:
the sort returns exactly when the ids are distinct and the edges acyclic, raises
`ValueError` otherwise, and what it returns lists every id once with every source
before its target. -/
theorem getStepOrder_correct (wf : WorkflowDefinition α) (h : wf.EdgesKnown) :
    ((∃ order, wf.getStepOrder = .ok order) ↔ wf.stepIds.Nodup ∧ Acyclic wf.graph) ∧
      ((¬∃ order, wf.getStepOrder = .ok order) →
        wf.getStepOrder = .error (.valueError "Workflow contains cycles")) ∧
      ∀ order, wf.getStepOrder = .ok order →
        order.Nodup ∧ (∀ id, id ∈ order ↔ id ∈ wf.stepIds) ∧ Sorted wf.graph order := by
  rcases getStepOrder_cases h with ⟨order, hok, hvalid, hspec⟩ | ⟨herr, hinvalid⟩
  · refine ⟨⟨fun _ => hvalid, fun _ => ⟨order, hok⟩⟩, fun hn => absurd ⟨order, hok⟩ hn, ?_⟩
    intro order' ho
    obtain rfl : order = order' := by simpa [hok] using ho
    exact hspec
  · have hnone : ¬∃ order, wf.getStepOrder = .ok order := by
      rintro ⟨order, ho⟩
      simp [herr] at ho
    exact ⟨⟨fun he => absurd he hnone, fun hv => absurd hv hinvalid⟩, fun _ => herr,
      fun order ho => absurd ⟨order, ho⟩ hnone⟩

/-- Two steps and two parallel edges between them. -/
def parallel : WorkflowDefinition where
  id := "test"
  version_pos := Nat.one_pos
  steps := [⟨"a", .chunking, "splitter", none, Dict.empty, none, none, none, none⟩,
    ⟨"b", .embedding, "embedder", none, Dict.empty, none, none, none, none⟩]
  edges := [⟨"a", "b", none, 0⟩, ⟨"a", "b", none, 1⟩]

theorem getStepOrder_correct_parallel :
    parallel.getStepOrder = .ok ["a", "b"] ∧ Sorted parallel.graph ["a", "b"] := by
  have horder : parallel.getStepOrder = .ok ["a", "b"] := by rfl
  exact ⟨horder, ((getStepOrder_correct parallel (by decide)).2.2 _ horder).2.2⟩

end RagEval.Workflows.WorkflowDefinition
