import Mathlib.Tactic.Basic

/-!
# Outcomes of computations with state and exceptions

What a computation returns or raises from a given state. The rules are equivalences: a
postcondition is carried backwards through a computation without loss, down to the conditions
under which the computation returns at all.
-/

namespace RagEval.Lib.Outcome

variable {ε σ α β : Type}

/-- The computation returns from `s`, and `post` holds of the value and the state. -/
def Returns (x : EStateM ε σ α) (s : σ) (post : α → σ → Prop) : Prop :=
  ∃ a t, x s = .ok a t ∧ post a t

/-- The computation raises from `s`, and `post` holds of the exception and the state. -/
def Raises (x : EStateM ε σ α) (s : σ) (post : ε → σ → Prop) : Prop :=
  ∃ e t, x s = .error e t ∧ post e t

theorem returns_of_ok {x : EStateM ε σ α} {s : σ} {a : α} {t : σ} (h : x s = .ok a t)
    (post : α → σ → Prop) : Returns x s post ↔ post a t := by
  constructor
  · rintro ⟨a', t', ha, hp⟩
    obtain ⟨rfl, rfl⟩ : a = a' ∧ t = t' := by simpa [h] using ha
    exact hp
  · exact fun hp => ⟨a, t, h, hp⟩

theorem returns_of_error {x : EStateM ε σ α} {s : σ} {e : ε} {t : σ} (h : x s = .error e t)
    (post : α → σ → Prop) : Returns x s post ↔ False := by
  simp [Returns, h]

theorem raises_of_ok {x : EStateM ε σ α} {s : σ} {a : α} {t : σ} (h : x s = .ok a t)
    (post : ε → σ → Prop) : Raises x s post ↔ False := by
  simp [Raises, h]

theorem raises_of_error {x : EStateM ε σ α} {s : σ} {e : ε} {t : σ} (h : x s = .error e t)
    (post : ε → σ → Prop) : Raises x s post ↔ post e t := by
  constructor
  · rintro ⟨e', t', he, hp⟩
    obtain ⟨rfl, rfl⟩ : e = e' ∧ t = t' := by simpa [h] using he
    exact hp
  · exact fun hp => ⟨e, t, h, hp⟩

@[simp]
theorem returns_pure (a : α) (s : σ) (post : α → σ → Prop) :
    Returns (pure a : EStateM ε σ α) s post ↔ post a s :=
  returns_of_ok rfl post

@[simp]
theorem returns_throw (e : ε) (s : σ) (post : α → σ → Prop) :
    Returns (throw e : EStateM ε σ α) s post ↔ False :=
  returns_of_error rfl post

@[simp]
theorem raises_pure (a : α) (s : σ) (post : ε → σ → Prop) :
    Raises (pure a : EStateM ε σ α) s post ↔ False :=
  raises_of_ok rfl post

@[simp]
theorem raises_throw (e : ε) (s : σ) (post : ε → σ → Prop) :
    Raises (throw e : EStateM ε σ α) s post ↔ post e s :=
  raises_of_error rfl post

@[simp]
theorem returns_modify (f : σ → σ) (s : σ) (post : PUnit → σ → Prop) :
    Returns (modify f : EStateM ε σ PUnit) s post ↔ post ⟨⟩ (f s) :=
  returns_of_ok rfl post

theorem bind_of_ok {x : EStateM ε σ α} {f : α → EStateM ε σ β} {s : σ} {a : α} {t : σ}
    (h : x s = .ok a t) : (x >>= f) s = f a t := by
  show EStateM.bind x f s = f a t
  simp only [EStateM.bind, h]

theorem bind_of_error {x : EStateM ε σ α} {f : α → EStateM ε σ β} {s : σ} {e : ε} {t : σ}
    (h : x s = .error e t) : (x >>= f) s = .error e t := by
  show EStateM.bind x f s = .error e t
  simp only [EStateM.bind, h]

/-- Sequencing: the second computation starts from what the first one returns. -/
theorem returns_bind (x : EStateM ε σ α) (f : α → EStateM ε σ β) (s : σ)
    (post : β → σ → Prop) :
    Returns (x >>= f) s post ↔ Returns x s fun a t => Returns (f a) t post := by
  cases h : x s with
  | ok a t =>
    rw [returns_of_ok h]
    show (∃ b u, (x >>= f) s = .ok b u ∧ post b u) ↔ _
    rw [bind_of_ok h]
    rfl
  | error e t => rw [returns_of_error h, returns_of_error (bind_of_error h)]

/-- A sequence raises where the first computation does, or the second after it. -/
theorem raises_bind (x : EStateM ε σ α) (f : α → EStateM ε σ β) (s : σ)
    (post : ε → σ → Prop) :
    Raises (x >>= f) s post ↔
      Raises x s post ∨ Returns x s fun a t => Raises (f a) t post := by
  cases h : x s with
  | ok a t =>
    rw [raises_of_ok h, returns_of_ok h, false_or]
    show (∃ e u, (x >>= f) s = .error e u ∧ post e u) ↔ _
    rw [bind_of_ok h]
    rfl
  | error e t =>
    rw [raises_of_error h, returns_of_error h, or_false, raises_of_error (bind_of_error h)]

theorem tryCatch_eq (x : EStateM ε σ α) (handle : ε → EStateM ε σ α) (s : σ) :
    (tryCatch x handle) s = match x s with
      | .ok a t => .ok a t
      | .error e t => handle e t := by
  show EStateM.tryCatch x handle s = _
  delta EStateM.tryCatch
  cases x s <;> rfl

theorem tryCatch_of_ok {x : EStateM ε σ α} {handle : ε → EStateM ε σ α} {s : σ} {a : α} {t : σ}
    (h : x s = .ok a t) : (tryCatch x handle) s = .ok a t := by
  rw [tryCatch_eq, h]

theorem tryCatch_of_error {x : EStateM ε σ α} {handle : ε → EStateM ε σ α} {s : σ} {e : ε}
    {t : σ} (h : x s = .error e t) : (tryCatch x handle) s = handle e t := by
  rw [tryCatch_eq, h]

/-- A handler sees the state in which the exception was raised. -/
theorem returns_tryCatch (x : EStateM ε σ α) (handle : ε → EStateM ε σ α) (s : σ)
    (post : α → σ → Prop) :
    Returns (tryCatch x handle) s post ↔
      Returns x s post ∨ Raises x s fun e t => Returns (handle e) t post := by
  cases h : x s with
  | ok a t =>
    rw [returns_of_ok h, raises_of_ok h, or_false, returns_of_ok (tryCatch_of_ok h)]
  | error e t =>
    rw [returns_of_error h, raises_of_error h, false_or]
    show (∃ a u, (tryCatch x handle) s = .ok a u ∧ post a u) ↔ _
    rw [tryCatch_of_error h]
    rfl

/-- A computation whose exceptions are raised again is the computation. -/
@[simp]
theorem tryCatch_throw (x : EStateM ε σ α) : (tryCatch x fun e => throw e) = x := by
  funext s
  cases h : x s with
  | ok a t => rw [tryCatch_of_ok h]
  | error e t =>
    rw [tryCatch_of_error h]
    rfl

/-! ## Exceptions only -/

/-- The computation returns. -/
def Succeeds (x : Except ε α) : Prop := ∃ a, x = .ok a

/-- The computation returns or raises an allowed exception. -/
def Within (allowed : ε → Prop) (x : Except ε α) : Prop := ∀ e, x = .error e → allowed e

@[simp]
theorem succeeds_ok (a : α) : Succeeds (.ok a : Except ε α) := ⟨a, rfl⟩

@[simp]
theorem succeeds_pure (a : α) : Succeeds (pure a : Except ε α) := ⟨a, rfl⟩

@[simp]
theorem not_succeeds_error (e : ε) : ¬Succeeds (.error e : Except ε α) := by
  rintro ⟨a, ha⟩
  cases ha

theorem succeeds_bind (x : Except ε α) (f : α → Except ε β) :
    Succeeds (x >>= f) ↔ ∃ a, x = .ok a ∧ Succeeds (f a) := by
  cases x with
  | ok a =>
    show Succeeds (f a) ↔ _
    simp
  | error e =>
    show Succeeds (.error e : Except ε β) ↔ _
    simp

/-- A loop that collects results returns if each round does. -/
theorem succeeds_mapM (f : α → Except ε β) (l : List α) :
    Succeeds (l.mapM f) ↔ ∀ x ∈ l, Succeeds (f x) := by
  induction l with
  | nil => simp
  | cons x rest ih =>
    rw [List.mapM_cons, succeeds_bind, List.forall_mem_cons, ← ih]
    constructor
    · rintro ⟨a, ha, hrest⟩
      obtain ⟨as, has, -⟩ := (succeeds_bind _ _).mp hrest
      exact ⟨⟨a, ha⟩, as, has⟩
    · rintro ⟨⟨a, ha⟩, as, has⟩
      exact ⟨a, ha, (succeeds_bind _ _).mpr ⟨as, has, succeeds_pure _⟩⟩

@[simp]
theorem within_ok (allowed : ε → Prop) (a : α) : Within allowed (.ok a : Except ε α) := by
  rintro e ⟨⟩

@[simp]
theorem within_pure (allowed : ε → Prop) (a : α) : Within allowed (pure a : Except ε α) :=
  within_ok allowed a

@[simp]
theorem within_error (allowed : ε → Prop) (e : ε) :
    Within allowed (.error e : Except ε α) ↔ allowed e := by
  simp [Within]

theorem within_bind {allowed : ε → Prop} {x : Except ε α} {f : α → Except ε β}
    (hx : Within allowed x) (hf : ∀ a, Within allowed (f a)) : Within allowed (x >>= f) := by
  cases x with
  | ok a => exact hf a
  | error e => exact (within_error _ _).mpr (hx e rfl)

theorem within_map {allowed : ε → Prop} {f : α → β} {x : Except ε α} (hx : Within allowed x) :
    Within allowed (x.map f) := by
  cases x with
  | ok a => exact within_ok _ _
  | error e => exact (within_error _ _).mpr (hx e rfl)

theorem within_mapM {allowed : ε → Prop} {f : α → Except ε β} (hf : ∀ a, Within allowed (f a))
    (l : List α) : Within allowed (l.mapM f) := by
  induction l with
  | nil => exact within_ok _ _
  | cons a rest ih =>
    rw [List.mapM_cons]
    exact within_bind (hf a) fun _ => within_bind ih fun _ => within_ok _ _

/-- Sequencing after a computation that raises nothing allowed: it has to return. -/
theorem within_bind_iff {allowed : ε → Prop} {x : Except ε α}
    (hx : Within (fun e => ¬allowed e) x) (f : α → Except ε β) :
    Within allowed (x >>= f) ↔ ∃ a, x = .ok a ∧ Within allowed (f a) := by
  cases x with
  | ok a =>
    show Within allowed (f a) ↔ _
    simp
  | error e =>
    show Within allowed (.error e : Except ε β) ↔ _
    simp [hx e rfl]

end RagEval.Lib.Outcome
