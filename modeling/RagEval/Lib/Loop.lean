import Mathlib.Tactic.Cases
import RagEval.Lib.Dict
import RagEval.Lib.Value

/-!
# Raising computations and loops with a budget

A `while` loop runs at most `budget` rounds; a run that is not over by then
ends in `PyError.diverges`. An invariant together with a measure that each round
lowers shows that the budget is never reached. A comprehension whose values may
raise is a loop over its keys.
-/

namespace RagEval.Lib

variable {σ : Type*}

/-- `d[k]`, raising `KeyError`. -/
def getItem {α : Type*} (d : Dict String α) (k : String) : Except PyError α :=
  match d.get? k with
  | some v => .ok v
  | none => .error (.keyError k)

theorem getItem_of_get? {α : Type*} {d : Dict String α} {k : String} {v : α}
    (h : d.get? k = some v) : getItem d k = .ok v := by
  rw [getItem, h]

theorem ok_bind {ε α β : Type} (a : α) (f : α → Except ε β) : (Except.ok a >>= f) = f a := rfl

/-- A computation that returns has returned from each of its parts. -/
theorem bind_ok {ε α β : Type} {x : Except ε α} {f : α → Except ε β} {b : β}
    (h : x >>= f = .ok b) : ∃ a, x = .ok a ∧ f a = .ok b := by
  cases x with
  | error e => cases h
  | ok a => exact ⟨a, rfl, h⟩

theorem mapError_ok {ε ε' α : Type} {x : Except ε α} {f : ε → ε'} {a : α}
    (h : x.mapError f = .ok a) : x = .ok a := by
  cases x with
  | error e => cases h
  | ok b => exact congrArg Except.ok (Except.ok.inj h)

/-- A `for` loop of checks passes exactly when every check does. -/
theorem forM_ok_iff {ε α : Type*} (f : α → Except ε Unit) (xs : List α) :
    forM xs f = .ok () ↔ ∀ x ∈ xs, f x = .ok () := by
  induction xs with
  | nil => simp [pure, Except.pure]
  | cons x rest ih =>
    rw [List.forM_cons, List.forall_mem_cons, ← ih]
    cases hx : f x with
    | error e => simp [bind, Except.bind]
    | ok u => simp [bind, Except.bind]

/-- What every round of a loop that returns keeps, of the elements gone through and the state. -/
theorem foldlM_trace_invariant {ε σ α : Type} {f : σ → α → Except ε σ} {I : List α → σ → Prop}
    {xs : List α}
    (hstep : ∀ {past s x s'}, x ∈ xs → I past s → f s x = .ok s' → I (past ++ [x]) s')
    {s s' : σ} (h : xs.foldlM f s = .ok s') (hI : I [] s) : I xs s' := by
  suffices hloop : ∀ (rest : List α) {past : List α} {s : σ}, rest ⊆ xs → I past s →
      rest.foldlM f s = .ok s' → I (past ++ rest) s' from hloop xs (List.Subset.refl xs) hI h
  intro rest
  induction rest with
  | nil =>
    intro past s _ hpast hs
    obtain rfl := Except.ok.inj hs
    rwa [List.append_nil]
  | cons x rest ih =>
    intro past s hsub hpast hs
    rw [List.foldlM_cons] at hs
    obtain ⟨next, hnext, hrest⟩ := bind_ok hs
    rw [List.append_cons]
    refine ih (fun y hy => hsub (List.mem_cons_of_mem x hy)) ?_ hrest
    exact hstep (hsub List.mem_cons_self) hpast hnext

/-- A loop that raises has raised in one of its rounds. -/
theorem exists_of_foldlM_error {ε σ α : Type} {f : σ → α → Except ε σ} {xs : List α} {s : σ} {e : ε}
    (h : xs.foldlM f s = .error e) :
    ∃ before x after s', xs = before ++ x :: after ∧ before.foldlM f s = .ok s' ∧
      f s' x = .error e := by
  induction xs generalizing s with
  | nil => cases h
  | cons x rest ih =>
    rw [List.foldlM_cons] at h
    cases hx : f s x with
    | error e' =>
      rw [hx] at h
      obtain rfl := Except.error.inj h
      exact ⟨[], x, rest, s, rfl, rfl, hx⟩
    | ok next =>
      rw [hx] at h
      obtain ⟨before, y, after, s', rfl, hbefore, hy⟩ := ih h
      refine ⟨x :: before, y, after, s', rfl, ?_, hy⟩
      rw [List.foldlM_cons, hx]
      exact hbefore

/-- A loop whose round raises raises. -/
theorem foldlM_error {ε σ α : Type} {f : σ → α → Except ε σ} {before after : List α} {x : α}
    {s s' : σ} {e : ε} (hbefore : before.foldlM f s = .ok s') (hx : f s' x = .error e) :
    (before ++ x :: after).foldlM f s = .error e := by
  rw [List.foldlM_append, hbefore]
  show (x :: after).foldlM f s' = .error e
  rw [List.foldlM_cons, hx]
  rfl

/-- One round of the comprehension `{k: v for k in ks if …}`: a key without a value is left out. -/
def collect {ε : Type} {κ α : Type} [DecidableEq κ] (f : κ → Except ε (Option α)) (d : Dict κ α)
    (k : κ) : Except ε (Dict κ α) := do
  match ← f k with
  | some v => return d.set k v
  | none => return d

/-- A comprehension that returns has computed the value of every key. -/
theorem exists_of_foldlM_collect {ε : Type} {κ α : Type} [DecidableEq κ]
    {f : κ → Except ε (Option α)} {ks : List κ} {d e : Dict κ α}
    (h : ks.foldlM (collect f) d = .ok e) : ∀ k ∈ ks, ∃ o, f k = .ok o := by
  induction ks generalizing d with
  | nil => simp
  | cons a rest ih =>
    rw [List.foldlM_cons] at h
    obtain ⟨d', hd', hrest⟩ := bind_ok h
    obtain ⟨o, ho, -⟩ := bind_ok hd'
    rw [List.forall_mem_cons]
    exact ⟨⟨o, ho⟩, ih hrest⟩

/-- What a comprehension stores under a key: the value of the key, if it is one of those iterated
over and has one. -/
theorem get?_foldlM_collect {ε : Type} {κ α : Type} [DecidableEq κ]
    {f : κ → Except ε (Option α)} {ks : List κ} {d e : Dict κ α}
    (h : ks.foldlM (collect f) d = .ok e) (k : κ) (v : α) :
    e.get? k = some v ↔
      (k ∈ ks ∧ f k = .ok (some v)) ∨ ((k ∈ ks → f k = .ok none) ∧ d.get? k = some v) := by
  induction ks generalizing d with
  | nil =>
    obtain rfl := Except.ok.inj h
    simp
  | cons a rest ih =>
    rw [List.foldlM_cons] at h
    obtain ⟨d', hd', hrest⟩ := bind_ok h
    obtain ⟨o, ho, hset⟩ := bind_ok hd'
    rw [ih hrest]
    cases o with
    | none =>
      obtain rfl := Except.ok.inj hset
      by_cases hk : k = a
      · subst hk
        simp [ho]
      · simp [hk]
    | some w =>
      obtain rfl := Except.ok.inj hset
      rw [Dict.get?_set]
      by_cases hk : k = a
      · subst hk
        by_cases hr : k ∈ rest
        · simp [ho, hr]
        · simp [ho, hr]
      · simp [hk, Ne.symm hk]

/-- `while cond: body`. -/
def whileLoop (cond : σ → Bool) (body : σ → Except PyError σ) : Nat → σ → Except PyError σ
  | 0, s => if cond s then .error .diverges else .ok s
  | budget + 1, s => if cond s then body s >>= whileLoop cond body budget else .ok s

/-- **Total correctness**: a round that keeps `I` and lowers `μ` ends the loop
normally within any budget of at least `μ`, in a state of `I`. -/
theorem whileLoop_ok (cond : σ → Bool) (body : σ → Except PyError σ) (I : σ → Prop) (μ : σ → Nat)
    (hstep : ∀ s, I s → cond s = true → ∃ s', body s = .ok s' ∧ I s' ∧ μ s' < μ s)
    {budget : Nat} {s : σ} (hI : I s) (hμ : μ s ≤ budget) :
    ∃ s', whileLoop cond body budget s = .ok s' ∧ I s' ∧ cond s' = false := by
  induction budget generalizing s with
  | zero =>
    cases hc : cond s with
    | false => exact ⟨s, by simp [whileLoop, hc], hI, hc⟩
    | true =>
      obtain ⟨_, _, _, hlt⟩ := hstep s hI hc
      omega
  | succ budget ih =>
    cases hc : cond s with
    | false => exact ⟨s, by simp [whileLoop, hc], hI, hc⟩
    | true =>
      obtain ⟨s₁, hb, hI₁, hlt⟩ := hstep s hI hc
      obtain ⟨s', hr, hI', hc'⟩ := ih hI₁ (by omega)
      exact ⟨s', by simp only [whileLoop, hc, if_true, hb]; exact hr, hI', hc'⟩

end RagEval.Lib
