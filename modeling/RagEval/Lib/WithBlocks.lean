import Mathlib.Tactic.Basic

/-!
# Programs of with-blocks

Programs that raise and catch exceptions and open blocks over context managers, and that read
values which decide how they go on: a branch, a loop that ends and a `return` out of a block are
such programs. What a block is to its body is compared with binding a value for it.

## Main definitions

- `Program.run` — the programs over managers that change a state
- `Program.lexical` — the same programs where a block binds a value for its body
- `Scoping` — what makes managers an implementation of such a binding

## Main results

- `Scoping.run_spec` — with such managers a program runs as if it bound the values
- `Program.lexical_events` — what the blocks and what is in them find
-/

namespace RagEval.Lib.WithBlocks

/-- Programs over objects `ι`, values read `ν` and exceptions `ε`; what a handler does not catch
it raises again. -/
inductive Program (ι ν ε : Type) where
  | pass
  | raise (e : ε)
  | read (next : ν → Program ι ν ε)
  | seq (first second : Program ι ν ε)
  | tryExcept (body : Program ι ν ε) (handler : ε → Program ι ν ε)
  | withBlock (obj : ι) (body : Program ι ν ε)

/-- What is seen of a run: a value that is read, and what it is before and after a block. The
objects of the blocks around it come with it, the innermost first. -/
inductive Event (ι ν : Type) where
  | read (enclosing : List ι) (value : ν)
  | left (enclosing : List ι) (obj : ι) (before after : ν)

/-- How a program is left, and what is seen until then. -/
structure Trace (ι ν ε : Type) where
  result : Except ε Unit
  events : List (Event ι ν)

/-- Context managers: the values a state shows, `__enter__`, and an `__exit__` that lets every
exception pass. -/
structure Manager (ι ν ε σ : Type) where
  view : σ → ν
  enter : ι → EStateM ε σ Unit
  exit : ι → EStateM ε σ Unit

variable {ι ν ε σ : Type}

def Trace.after (events : List (Event ι ν)) (trace : Trace ι ν ε) : Trace ι ν ε :=
  { trace with events := events ++ trace.events }

namespace Program

/-- The program from a state, within blocks over the objects `enclosing`. -/
def run (m : Manager ι ν ε σ) (enclosing : List ι) : Program ι ν ε → σ → Trace ι ν ε × σ
  | pass, s => (⟨.ok (), []⟩, s)
  | raise e, s => (⟨.error e, []⟩, s)
  | read next, s =>
    let (trace, t) := run m enclosing (next (m.view s)) s
    (trace.after [.read enclosing (m.view s)], t)
  | seq first second, s =>
    match run m enclosing first s with
    | (⟨.error e, events⟩, t) => (⟨.error e, events⟩, t)
    | (⟨.ok (), events⟩, t) =>
      let (trace, u) := run m enclosing second t
      (trace.after events, u)
  | tryExcept body handler, s =>
    match run m enclosing body s with
    | (⟨.ok (), events⟩, t) => (⟨.ok (), events⟩, t)
    | (⟨.error e, events⟩, t) =>
      let (trace, u) := run m enclosing (handler e) t
      (trace.after events, u)
  | withBlock obj body, s =>
    match m.enter obj s with
    | .error e t => (⟨.error e, []⟩, t)
    | .ok () t =>
      let (trace, u) := run m (obj :: enclosing) body t
      match m.exit obj u with
      | .ok () v =>
        (⟨trace.result, trace.events ++ [.left enclosing obj (m.view s) (m.view v)]⟩, v)
      | .error e v => (⟨.error e, trace.events ++ [.left enclosing obj (m.view s) (m.view v)]⟩, v)

/-- The program where a block binds a value for its body; `base` is the value outside all blocks. -/
def lexical (bind : ι → ν → ν) (base : ν) (enclosing : List ι) : Program ι ν ε → Trace ι ν ε
  | pass => ⟨.ok (), []⟩
  | raise e => ⟨.error e, []⟩
  | read next =>
    let value := enclosing.foldr bind base
    (lexical bind base enclosing (next value)).after [.read enclosing value]
  | seq first second =>
    match lexical bind base enclosing first with
    | ⟨.error e, events⟩ => ⟨.error e, events⟩
    | ⟨.ok (), events⟩ => (lexical bind base enclosing second).after events
  | tryExcept body handler =>
    match lexical bind base enclosing body with
    | ⟨.ok (), events⟩ => ⟨.ok (), events⟩
    | ⟨.error e, events⟩ => (lexical bind base enclosing (handler e)).after events
  | withBlock obj body =>
    let trace := lexical bind base (obj :: enclosing) body
    let value := enclosing.foldr bind base
    { trace with events := trace.events ++ [.left enclosing obj value value] }

/-- No block is over the object of a block around it, those over `enclosing` included. -/
def Distinct (enclosing : List ι) : Program ι ν ε → Prop
  | pass => True
  | raise _ => True
  | read next => ∀ value, Distinct enclosing (next value)
  | seq first second => Distinct enclosing first ∧ Distinct enclosing second
  | tryExcept body handler => Distinct enclosing body ∧ ∀ e, Distinct enclosing (handler e)
  | withBlock obj body => obj ∉ enclosing ∧ Distinct (obj :: enclosing) body

end Program

/-! ## Bindings -/

/-- What is seen is what the blocks around it have bound, and after a block it is as before. -/
def Event.Bound (bind : ι → ν → ν) (base : ν) : Event ι ν → Prop
  | .read enclosing value => value = enclosing.foldr bind base
  | .left enclosing _ before after => before = enclosing.foldr bind base ∧ after = before

theorem Trace.mem_after {events : List (Event ι ν)} {trace : Trace ι ν ε} {event : Event ι ν} :
    event ∈ (trace.after events).events ↔ event ∈ events ∨ event ∈ trace.events :=
  List.mem_append

theorem Program.lexical_events (bind : ι → ν → ν) (base : ν) (enclosing : List ι)
    (p : Program ι ν ε) : ∀ event ∈ (p.lexical bind base enclosing).events,
      event.Bound bind base := by
  induction p generalizing enclosing with
  | pass => simp [lexical]
  | raise e => simp [lexical]
  | read next ih =>
    intro event hevent
    rw [lexical, Trace.mem_after, List.mem_singleton] at hevent
    obtain rfl | hevent := hevent
    · rfl
    · exact ih _ _ event hevent
  | seq first second ihfirst ihsecond =>
    intro event hevent
    have hfirst := ihfirst enclosing event
    rw [lexical] at hevent
    split at hevent
    · rename_i e events heq
      rw [heq] at hfirst
      exact hfirst hevent
    · rename_i events heq
      rw [heq] at hfirst
      obtain hevent | hevent := Trace.mem_after.mp hevent
      · exact hfirst hevent
      · exact ihsecond enclosing event hevent
  | tryExcept body handler ihbody ihhandler =>
    intro event hevent
    have hbody := ihbody enclosing event
    rw [lexical] at hevent
    split at hevent
    · rename_i events heq
      rw [heq] at hbody
      exact hbody hevent
    · rename_i e events heq
      rw [heq] at hbody
      obtain hevent | hevent := Trace.mem_after.mp hevent
      · exact hbody hevent
      · exact ihhandler e enclosing event hevent
  | withBlock obj body ih =>
    intro event hevent
    rw [lexical, List.mem_append, List.mem_singleton] at hevent
    obtain hevent | rfl := hevent
    · exact ih _ event hevent
    · exact ⟨rfl, rfl⟩

/-- Managers that bind values: what code inside blocks keeps of a state, among it the values and
whatever the blocks need to be left. -/
structure Scoping (m : Manager ι ν ε σ) (bind : ι → ν → ν) where
  Ready : σ → Prop
  Kept : List ι → σ → σ → Prop
  refl {enclosing : List ι} {s : σ} : Ready s → Kept enclosing s s
  trans {enclosing : List ι} {s t u : σ} :
    Kept enclosing s t → Kept enclosing t u → Kept enclosing s u
  ready {enclosing : List ι} {s t : σ} : Kept enclosing s t → Ready t
  view_eq {enclosing : List ι} {s t : σ} : Kept enclosing s t → m.view t = m.view s
  block {obj : ι} {enclosing : List ι} {s : σ} : obj ∉ enclosing → Ready s →
    ∃ t, m.enter obj s = .ok () t ∧ Ready t ∧ m.view t = bind obj (m.view s) ∧
      ∀ u, Kept (obj :: enclosing) t u → ∃ v, m.exit obj u = .ok () v ∧ Kept enclosing s v

/-- With managers that bind values a program is left, and sees what it sees, as if it bound them,
and it keeps the state. -/
theorem Scoping.run_spec {m : Manager ι ν ε σ} {bind : ι → ν → ν} (d : Scoping m bind) (base : ν)
    {enclosing : List ι} {p : Program ι ν ε} (hp : p.Distinct enclosing) {s : σ} (hs : d.Ready s)
    (hview : m.view s = enclosing.foldr bind base) :
    ∃ t, p.run m enclosing s = (p.lexical bind base enclosing, t) ∧ d.Kept enclosing s t := by
  -- what a part keeps makes the state fit for the next one, and lets the block around it be left
  induction p generalizing enclosing s with
  | pass => exact ⟨s, rfl, d.refl hs⟩
  | raise e => exact ⟨s, rfl, d.refl hs⟩
  | read next ih =>
    obtain ⟨t, hrun, hkept⟩ := ih _ (hp _) hs hview
    refine ⟨t, ?_, hkept⟩
    rw [Program.run, hrun, hview, Program.lexical]
  | seq first second ihfirst ihsecond =>
    obtain ⟨t, hfirst, hkept⟩ := ihfirst hp.1 hs hview
    rw [Program.run, hfirst, Program.lexical]
    rcases first.lexical bind base enclosing with ⟨e | ⟨⟩, events⟩
    · exact ⟨t, rfl, hkept⟩
    · obtain ⟨u, hsecond, hkept'⟩ := ihsecond hp.2 (d.ready hkept) ((d.view_eq hkept).trans hview)
      refine ⟨u, ?_, d.trans hkept hkept'⟩
      dsimp only
      rw [hsecond]
  | tryExcept body handler ihbody ihhandler =>
    obtain ⟨t, hbody, hkept⟩ := ihbody hp.1 hs hview
    rw [Program.run, hbody, Program.lexical]
    rcases body.lexical bind base enclosing with ⟨e | ⟨⟩, events⟩
    · obtain ⟨u, hhandler, hkept'⟩ :=
        ihhandler e (hp.2 e) (d.ready hkept) ((d.view_eq hkept).trans hview)
      refine ⟨u, ?_, d.trans hkept hkept'⟩
      dsimp only
      rw [hhandler]
    · exact ⟨t, rfl, hkept⟩
  | withBlock obj body ih =>
    obtain ⟨t, henter, ht, hbind, hexit⟩ := d.block hp.1 hs
    have hbody : m.view t = (obj :: enclosing).foldr bind base := by
      rw [hbind, hview, List.foldr_cons]
    obtain ⟨u, hrun, hkept⟩ := ih hp.2 ht hbody
    obtain ⟨v, hleave, hkept'⟩ := hexit u hkept
    refine ⟨v, ?_, hkept'⟩
    rw [Program.run, henter]
    dsimp only
    rw [hrun]
    dsimp only
    rw [hleave]
    dsimp only
    rw [d.view_eq hkept', hview, Program.lexical]

end RagEval.Lib.WithBlocks
