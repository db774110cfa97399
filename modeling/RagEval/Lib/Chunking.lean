import RagEval.Lib.Split

/-!
# Greedy chunks with an overlap

Pieces of a list are gathered, each followed by the separator, into a current chunk as long as
they fit; a piece that does not fit closes the chunk and starts the next one, behind the last
elements of the closed chunk.

## Main definitions

- `chunk` — the chunks of a list of pieces
- `overlapped` — the chunks made of given groups of pieces
- `freshParts` — chunks without what each repeats of the one before it
- `Division` — the groups of pieces that are as long as fits

## Main results

- `exists_division`, `chunk_of_division` — the pieces have a division, and its stretches are the
  chunks
- `fits_trim_iff` — when all chunks fit, trimmed
- `stretch_eq_concat`, `infix_of_mem_overlapped` — where in the list the chunks stand
-/

namespace RagEval.Lib.Chunking
open Split

variable {α : Type*}

/-- The closed chunks and the current one. -/
structure Chunks (α : Type*) where
  closed : List (List α)
  current : List α

/-- The chunks with the current one, unless that is empty. -/
def Chunks.flush (s : Chunks α) : List (List α) :=
  match s.current with
  | [] => s.closed
  | a :: rest => s.closed ++ [a :: rest]

/-- The state before the first piece. -/
def Chunks.init : Chunks α := ⟨[], []⟩

/-- Add one piece. -/
def add (fits : Nat → Bool) (overlap : Nat) (sep : List α) (s : Chunks α) (piece : List α) :
    Chunks α :=
  if fits (s.current.length + piece.length) then ⟨s.closed, s.current ++ (piece ++ sep)⟩
  else ⟨s.flush, s.current.rtake overlap ++ (piece ++ sep)⟩

/-- The state after the given pieces. -/
def gather (fits : Nat → Bool) (overlap : Nat) (sep : List α) (pieces : List (List α)) :
    Chunks α :=
  pieces.foldl (add fits overlap sep) Chunks.init

def chunk (fits : Nat → Bool) (overlap : Nat) (sep : List α) (pieces : List (List α)) :
    List (List α) :=
  (gather fits overlap sep pieces).flush

/-- The chunks made of the given groups of pieces behind what came `before`. -/
def overlapped (overlap : Nat) (sep : List α) : List α → List (List (List α)) → List (List α)
  | _, [] => []
  | before, group :: groups =>
    (before.rtake overlap ++ terminated sep group) ::
      overlapped overlap sep (before ++ terminated sep group) groups

/-- The first chunk, and every other one without the last elements of its predecessor. -/
def freshParts (overlap : Nat) : List (List α) → List (List α)
  | [] => []
  | r :: rest => r :: List.zipWith (fun r r' => r'.drop (min overlap r.length)) (r :: rest) rest

theorem Chunks.flush_of_ne_nil {s : Chunks α} (h : s.current ≠ []) :
    s.flush = s.closed ++ [s.current] := by
  unfold flush
  cases hc : s.current with
  | nil => exact absurd hc h
  | cons a rest => rfl

theorem Chunks.mem_flush_iff {s : Chunks α} {r : List α} :
    r ∈ s.flush ↔ r ∈ s.closed ∨ s.current ≠ [] ∧ r = s.current := by
  unfold flush
  cases s.current with
  | nil => simp
  | cons a rest => simp

theorem overlapped_concat (overlap : Nat) (sep before : List α) (groups : List (List (List α)))
    (group : List (List α)) :
    overlapped overlap sep before (groups ++ [group]) = overlapped overlap sep before groups ++
      [(before ++ terminated sep groups.flatten).rtake overlap ++ terminated sep group] := by
  induction groups generalizing before with
  | nil => simp [overlapped]
  | cons g gs ih =>
    rw [List.cons_append, overlapped, ih, overlapped, List.cons_append, List.flatten_cons,
      terminated_append, List.append_assoc before]

section
variable (fits : Nat → Bool) (overlap : Nat) {sep : List α}

theorem gather_concat (sep : List α) (pieces : List (List α)) (piece : List α) :
    gather fits overlap sep (pieces ++ [piece]) =
      add fits overlap sep (gather fits overlap sep pieces) piece := by
  rw [gather, List.foldl_append]
  rfl

end

/-! ## Divisions -/

/-- A group of pieces behind the last elements of the groups before it. -/
def stretch (overlap : Nat) (sep : List α) (before : List (List (List α)))
    (group : List (List α)) : List α :=
  (terminated sep before.flatten).rtake overlap ++ terminated sep group

/-- Groups of pieces as long as `fits` allows: up to each of its pieces but the first the stretch
of a group fits, and up to the first piece behind the group it does not. -/
structure Division (fits : Nat → Bool) (overlap : Nat) (sep : List α)
    (groups : List (List (List α))) : Prop where
  nonempty : ∀ group ∈ groups, group ≠ []
  fits_of_ne_nil : ∀ before front piece back after,
    groups = before ++ (front ++ piece :: back) :: after → front ≠ [] →
      fits ((stretch overlap sep before front).length + piece.length) = true
  exceeds : ∀ before group piece back after,
    groups = before ++ group :: (piece :: back) :: after →
      fits ((stretch overlap sep before group).length + piece.length) = false

theorem stretch_concat (overlap : Nat) (sep : List α) (before : List (List (List α)))
    (group : List (List α)) (piece : List α) :
    stretch overlap sep before (group ++ [piece]) =
      stretch overlap sep before group ++ (piece ++ sep) := by
  simp [stretch]

/-- What a stretch hands on is what its group and those before it hand on. -/
theorem rtake_stretch (overlap : Nat) (sep : List α) (before : List (List (List α)))
    (group : List (List α)) : (stretch overlap sep before group).rtake overlap =
      (terminated sep (before ++ [group]).flatten).rtake overlap := by
  rw [stretch, rtake_rtake_append, List.flatten_append, List.flatten_singleton, terminated_append]

/-- An element of a list with one more element at the end is that element or stands before it. -/
theorem concat_eq_append_cons {β : Type*} {l before after : List β} {b a : β}
    (h : l ++ [b] = before ++ a :: after) :
    (l = before ∧ b = a ∧ after = []) ∨ ∃ rest, l = before ++ a :: rest ∧ after = rest ++ [b] := by
  rcases List.eq_nil_or_concat after with rfl | ⟨rest, last, rfl⟩
  · obtain ⟨rfl, hb⟩ := List.append_inj' h rfl
    exact .inl ⟨rfl, List.singleton_inj.mp hb, rfl⟩
  · rw [List.concat_eq_append, ← List.cons_append, ← List.append_assoc] at h
    obtain ⟨hl, hb⟩ := List.append_inj' h rfl
    obtain rfl := List.singleton_inj.mp hb
    exact .inr ⟨rest, hl, List.concat_eq_append⟩

section
variable {fits : Nat → Bool} {overlap : Nat} {sep : List α} {before : List (List (List α))}
  {group : List (List α)} {piece : List α}

theorem division_nil : Division fits overlap sep ([] : List (List (List α))) where
  nonempty := by simp
  fits_of_ne_nil := by simp
  exceeds := by simp

theorem division_singleton (piece : List α) : Division fits overlap sep [[piece]] where
  nonempty := by simp
  fits_of_ne_nil := by
    intro before front p back after h hfront
    obtain ⟨-, hgroup, -⟩ | ⟨rest, hnil, -⟩ := concat_eq_append_cons (l := []) h
    · rcases List.append_eq_singleton_iff.mp hgroup.symm with ⟨hnil, -⟩ | ⟨-, hcons⟩
      · exact absurd hnil hfront
      · cases hcons
    · simp at hnil
  exceeds := by
    intro before g p back after h
    have hlength := congrArg List.length h
    simp at hlength
    omega

/-- Without its last group a division is one. -/
theorem Division.of_concat (h : Division fits overlap sep (before ++ [group])) :
    Division fits overlap sep before where
  nonempty g hg := h.nonempty g (List.mem_append_left _ hg)
  fits_of_ne_nil gs front p back after hsplit hfront :=
    h.fits_of_ne_nil gs front p back (after ++ [group]) (by simp [hsplit]) hfront
  exceeds gs g p back after hsplit :=
    h.exceeds gs g p back (after ++ [group]) (by simp [hsplit])

/-- Without the last piece of its last group a division is one. -/
theorem Division.of_join (h : Division fits overlap sep (before ++ [group ++ [piece]]))
    (hne : group ≠ []) : Division fits overlap sep (before ++ [group]) where
  nonempty g hg := by
    rcases List.mem_append.mp hg with hg | hg
    · exact h.nonempty g (List.mem_append_left _ hg)
    · rwa [List.mem_singleton.mp hg]
  fits_of_ne_nil gs front p back after hsplit hfront := by
    obtain ⟨rfl, hgroup, rfl⟩ | ⟨rest, rfl, rfl⟩ := concat_eq_append_cons hsplit
    · exact h.fits_of_ne_nil before front p (back ++ [piece]) [] (by simp [hgroup]) hfront
    · exact h.fits_of_ne_nil gs front p back (rest ++ [group ++ [piece]]) (by simp) hfront
  exceeds gs g p back after hsplit := by
    obtain ⟨-, -, hnil⟩ | ⟨rest, hbefore, hafter⟩ := concat_eq_append_cons hsplit
    · cases hnil
    · cases rest with
      | nil =>
        obtain ⟨hgroup, -⟩ := List.cons.inj hafter
        exact h.exceeds gs g p (back ++ [piece]) [] (by rw [hbefore, ← hgroup]; simp)
      | cons g' rest =>
        obtain ⟨rfl, -⟩ := List.cons.inj hafter
        exact h.exceeds gs g p back (rest ++ [group ++ [piece]]) (by rw [hbefore]; simp)

/-- A piece that fits joins the last group. -/
theorem Division.join (h : Division fits overlap sep (before ++ [group]))
    (hfits : fits ((stretch overlap sep before group).length + piece.length) = true) :
    Division fits overlap sep (before ++ [group ++ [piece]]) where
  nonempty g hg := by
    rcases List.mem_append.mp hg with hg | hg
    · exact h.nonempty g (List.mem_append_left _ hg)
    · rw [List.mem_singleton.mp hg]
      simp
  fits_of_ne_nil gs front p back after hsplit hfront := by
    obtain ⟨rfl, hgroup, rfl⟩ | ⟨rest, rfl, rfl⟩ := concat_eq_append_cons hsplit
    · obtain ⟨rfl, rfl, -⟩ | ⟨rest, hgroup, -⟩ := concat_eq_append_cons hgroup
      · exact hfits
      · exact h.fits_of_ne_nil before front p rest [] (by rw [hgroup]) hfront
    · exact h.fits_of_ne_nil gs front p back (rest ++ [group]) (by simp) hfront
  exceeds gs g p back after hsplit := by
    obtain ⟨-, -, hnil⟩ | ⟨rest, hbefore, hafter⟩ := concat_eq_append_cons hsplit
    · cases hnil
    · cases rest with
      | nil =>
        obtain ⟨hgroup, -⟩ := List.cons.inj hafter
        have hne := h.nonempty group (by simp)
        obtain ⟨first, others, rfl⟩ := List.exists_cons_of_ne_nil hne
        obtain ⟨rfl, -⟩ := List.cons.inj hgroup
        exact h.exceeds gs g p others [] (by rw [hbefore]; simp)
      | cons g' rest =>
        obtain ⟨rfl, -⟩ := List.cons.inj hafter
        exact h.exceeds gs g p back (rest ++ [group]) (by rw [hbefore]; simp)

/-- A piece that does not fit begins the next group. -/
theorem Division.next (h : Division fits overlap sep (before ++ [group]))
    (hfits : fits ((stretch overlap sep before group).length + piece.length) = false) :
    Division fits overlap sep (before ++ [group] ++ [[piece]]) where
  nonempty g hg := by
    rcases List.mem_append.mp hg with hg | hg
    · exact h.nonempty g hg
    · rw [List.mem_singleton.mp hg]
      simp
  fits_of_ne_nil gs front p back after hsplit hfront := by
    obtain ⟨-, hgroup, -⟩ | ⟨rest, hbefore, -⟩ := concat_eq_append_cons hsplit
    · rcases List.append_eq_singleton_iff.mp hgroup.symm with ⟨hnil, -⟩ | ⟨-, hcons⟩
      · exact absurd hnil hfront
      · cases hcons
    · exact h.fits_of_ne_nil gs front p back rest hbefore hfront
  exceeds gs g p back after hsplit := by
    obtain ⟨-, -, hnil⟩ | ⟨rest, hbefore, hafter⟩ := concat_eq_append_cons hsplit
    · cases hnil
    · cases rest with
      | nil =>
        obtain ⟨rfl, hgroup⟩ := List.append_inj' hbefore rfl
        obtain rfl := List.singleton_inj.mp hgroup
        obtain ⟨hpiece, -⟩ := List.cons.inj hafter
        obtain ⟨rfl, -⟩ := List.cons.inj hpiece
        exact hfits
      | cons g' rest =>
        obtain ⟨rfl, -⟩ := List.cons.inj hafter
        exact h.exceeds gs g p back rest hbefore

variable (fits overlap sep) in
/-- Any pieces have a division. -/
theorem exists_division (pieces : List (List α)) :
    ∃ groups, groups.flatten = pieces ∧ Division fits overlap sep groups := by
  induction pieces using List.reverseRecOn with
  | nil => exact ⟨[], rfl, division_nil⟩
  | append_singleton pieces piece ih =>
    obtain ⟨groups, hflat, hdiv⟩ := ih
    rcases List.eq_nil_or_concat groups with rfl | ⟨before, group, rfl⟩
    · exact ⟨[[piece]], by simp [← hflat], division_singleton piece⟩
    · rw [List.concat_eq_append] at hflat hdiv
      cases hfits : fits ((stretch overlap sep before group).length + piece.length) with
      | true => exact ⟨_, by simp [← hflat], hdiv.join hfits⟩
      | false => exact ⟨_, by simp [← hflat], hdiv.next hfits⟩

theorem terminated_ne_nil (hne : ∀ piece ∈ group, piece ++ sep ≠ []) (h : group ≠ []) :
    terminated sep group ≠ [] := by
  obtain ⟨piece, rest, rfl⟩ := List.exists_cons_of_ne_nil h
  rw [terminated_cons]
  exact List.append_ne_nil_of_left_ne_nil (hne piece List.mem_cons_self) _

theorem stretch_ne_nil (hdiv : Division fits overlap sep (before ++ [group]))
    (hne : ∀ piece ∈ (before ++ [group]).flatten, piece ++ sep ≠ []) :
    stretch overlap sep before group ≠ [] := by
  refine List.append_ne_nil_of_right_ne_nil _ (terminated_ne_nil (fun p hp => ?_) ?_)
  · exact hne p (by simp [hp])
  · exact hdiv.nonempty group (by simp)

/-- **The state of the loop**: behind a division's pieces, the chunks of all groups but the last
are closed, and the current one is the stretch of the last. -/
theorem gather_of_division (hdiv : Division fits overlap sep (before ++ [group]))
    (hne : ∀ piece ∈ (before ++ [group]).flatten, piece ++ sep ≠ []) :
    gather fits overlap sep (before ++ [group]).flatten =
      ⟨overlapped overlap sep [] before, stretch overlap sep before group⟩ := by
  induction before using List.reverseRecOn generalizing group with
  | nil =>
    induction group using List.reverseRecOn with
    | nil => exact absurd rfl (hdiv.nonempty [] (by simp))
    | append_singleton front piece ih =>
      by_cases hfront : front = []
      · subst hfront
        simp [gather, add, Chunks.init, Chunks.flush, overlapped, stretch]
      · have hfits := hdiv.fits_of_ne_nil [] front piece [] [] rfl hfront
        have hjoin : Division fits overlap sep ([] ++ [front]) := hdiv.of_join hfront
        have hstate := ih hjoin (fun p hp => hne p (by simp_all))
        simp only [List.nil_append, List.flatten_singleton] at hstate ⊢
        rw [gather_concat, hstate, add, if_pos hfits, stretch_concat]
  | append_singleton before last ihbefore =>
    induction group using List.reverseRecOn with
    | nil => exact absurd rfl (hdiv.nonempty [] (by simp))
    | append_singleton front piece ih =>
      have hflat : (before ++ [last] ++ [front ++ [piece]]).flatten =
          (before ++ [last] ++ [front]).flatten ++ [piece] := by simp
      rw [hflat] at hne ⊢
      have hfront' := fun p hp => hne p (List.mem_append_left _ hp)
      by_cases hfront : front = []
      · subst hfront
        have hfits := hdiv.exceeds before last piece [] [] (by simp)
        rw [List.flatten_append, List.flatten_singleton, List.append_nil] at hfront' ⊢
        have hcurrent := stretch_ne_nil hdiv.of_concat hfront'
        rw [gather_concat, ihbefore hdiv.of_concat hfront', add, if_neg (by simp [hfits]),
          Chunks.flush_of_ne_nil hcurrent, overlapped_concat, rtake_stretch, List.nil_append]
        simp [stretch]
      · have hfits := hdiv.fits_of_ne_nil (before ++ [last]) front piece [] [] rfl hfront
        rw [gather_concat, ih (hdiv.of_join hfront) hfront', add, if_pos hfits, stretch_concat]

/-- **The chunks** are the stretches of any division of the pieces. -/
theorem chunk_of_division {groups : List (List (List α))} (hdiv : Division fits overlap sep groups)
    (hne : ∀ piece ∈ groups.flatten, piece ++ sep ≠ []) :
    chunk fits overlap sep groups.flatten = overlapped overlap sep [] groups := by
  rcases List.eq_nil_or_concat groups with rfl | ⟨before, group, rfl⟩
  · rfl
  · rw [List.concat_eq_append] at hdiv hne ⊢
    rw [chunk, gather_of_division hdiv hne, Chunks.flush_of_ne_nil (stretch_ne_nil hdiv hne),
      overlapped_concat, List.nil_append]
    rfl

end

/-! ## What the chunks are made of -/

section
variable (overlap : Nat) (sep : List α)

/-- Each chunk begins with the last elements of the one before it. -/
theorem isChain_overlapped (before : List α) (groups : List (List (List α))) :
    List.IsChain (fun r r' => r.rtake overlap <+: r') (overlapped overlap sep before groups) := by
  induction groups generalizing before with
  | nil => exact .nil
  | cons g gs ih =>
    cases gs with
    | nil => exact .singleton _
    | cons g' gs' =>
      refine .cons_cons ?_ (ih _)
      rw [rtake_rtake_append]
      exact List.prefix_append _ _

/-- Behind a chunk with the same last elements as `before`, the fresh parts are the groups. -/
theorem zipWith_overlapped {before r : List α} (groups : List (List (List α)))
    (h : r.rtake overlap = before.rtake overlap) :
    List.zipWith (fun r r' => r'.drop (min overlap r.length))
        (r :: overlapped overlap sep before groups) (overlapped overlap sep before groups) =
      groups.map (terminated sep) := by
  induction groups generalizing before r with
  | nil => rfl
  | cons g gs ih =>
    rw [overlapped, List.zipWith_cons_cons, List.map_cons, ih (rtake_rtake_append _ _ _),
      ← length_rtake, h, List.drop_left]

theorem freshParts_overlapped (groups : List (List (List α))) :
    freshParts overlap (overlapped overlap sep [] groups) = groups.map (terminated sep) := by
  cases groups with
  | nil => rfl
  | cons g gs =>
    rw [overlapped, freshParts, zipWith_overlapped _ _ _ (rtake_rtake_append _ _ _)]
    simp

theorem flatten_map_terminated (groups : List (List (List α))) :
    (groups.map (terminated sep)).flatten = terminated sep groups.flatten := by
  induction groups with
  | nil => rfl
  | cons g gs ih => rw [List.map_cons, List.flatten_cons, ih, List.flatten_cons, terminated_append]

/-- A chunk is a group behind the last elements of the pieces before it. -/
theorem eq_of_mem_overlapped {before r : List α} {groups : List (List (List α))}
    (h : r ∈ overlapped overlap sep before groups) :
    ∃ gs g gs', groups = gs ++ g :: gs' ∧
      r = (before ++ terminated sep gs.flatten).rtake overlap ++ terminated sep g := by
  induction groups generalizing before with
  | nil => exact absurd h List.not_mem_nil
  | cons g gs ih =>
    rw [overlapped] at h
    rcases List.mem_cons.mp h with rfl | h
    · exact ⟨[], g, gs, rfl, by simp⟩
    · obtain ⟨gs₁, g', gs₂, rfl, rfl⟩ := ih h
      exact ⟨g :: gs₁, g', gs₂, rfl, by simp⟩

/-- Chunks are the stretches of groups. -/
theorem mem_overlapped_iff {r : List α} {groups : List (List (List α))} :
    r ∈ overlapped overlap sep [] groups ↔ ∃ before group after,
      groups = before ++ group :: after ∧ r = stretch overlap sep before group := by
  constructor
  · intro h
    obtain ⟨before, group, after, hsplit, hr⟩ := eq_of_mem_overlapped overlap sep h
    exact ⟨before, group, after, hsplit, by rw [hr, List.nil_append, stretch]⟩
  · rintro ⟨before, group, after, rfl, rfl⟩
    induction after using List.reverseRecOn with
    | nil =>
      rw [overlapped_concat, List.nil_append]
      exact List.mem_append_right _ (List.mem_singleton_self _)
    | append_singleton after last ih =>
      rw [← List.cons_append, ← List.append_assoc, overlapped_concat]
      exact List.mem_append_left _ ih

theorem infix_of_mem_terminated {piece : List α} {pieces : List (List α)} (h : piece ∈ pieces) :
    piece <:+: terminated sep pieces := by
  obtain ⟨before, after, rfl⟩ := List.append_of_mem h
  rw [terminated_append, terminated_cons]
  exact ⟨terminated sep before, sep ++ terminated sep after, by simp⟩

/-- Each piece of a group lies in the chunk of the group. -/
theorem exists_infix_overlapped (before : List α) {piece : List α} {groups : List (List (List α))}
    (h : piece ∈ groups.flatten) :
    ∃ r ∈ overlapped overlap sep before groups, piece <:+: r := by
  induction groups generalizing before with
  | nil => exact absurd h List.not_mem_nil
  | cons g gs ih =>
    rw [List.flatten_cons] at h
    rw [overlapped]
    rcases List.mem_append.mp h with hg | hgs
    · refine ⟨_, List.mem_cons_self, ?_⟩
      exact (infix_of_mem_terminated sep hg).trans (List.suffix_append _ _).isInfix
    · obtain ⟨r, hr, hinside⟩ := ih (before ++ terminated sep g) hgs
      exact ⟨r, List.mem_cons_of_mem _ hr, hinside⟩

end

section
variable {overlap : Nat} {sep : List α} {before : List (List (List α))} {group : List (List α)} {l : List α}
  (hpieces : terminated sep (before ++ [group]).flatten = l ++ sep)
include hpieces

/-- The last stretch is an end of the list, followed by a separator that was never there. -/
theorem stretch_eq_concat (hne : group ≠ []) :
    ∃ t, stretch overlap sep before group = t ++ sep ∧ t <:+ l := by
  obtain ⟨front, last, hg⟩ := List.eq_nil_or_concat group |>.resolve_left hne
  rw [List.concat_eq_append] at hg
  subst hg
  refine ⟨(terminated sep before.flatten).rtake overlap ++ (terminated sep front ++ last), ?_, ?_⟩
  · simp [stretch]
  · have hends : l ++ sep =
        terminated sep before.flatten ++ (terminated sep front ++ last) ++ sep := by
      rw [← hpieces]
      simp
    rw [List.append_cancel_right hends]
    exact List.suffix_append_self_iff.mpr (rtake_suffix _ _)

/-- The other stretches lie inside the list. -/
theorem infix_of_mem_overlapped (hne : group ≠ []) {r : List α}
    (hr : r ∈ overlapped overlap sep [] before) : r <:+: l := by
  obtain ⟨gs, g, gs', rfl, rfl⟩ := (mem_overlapped_iff overlap sep).mp hr
  have hsplit : terminated sep ((gs.flatten ++ g) ++ (gs'.flatten ++ group)) = l ++ sep := by
    rw [← hpieces]
    simp
  have hfront := prefix_of_terminated hsplit (by simp [hne])
  refine List.IsInfix.trans ?_ hfront.isInfix
  rw [terminated_append, stretch]
  exact (List.suffix_append_self_iff.mpr (rtake_suffix _ _)).isInfix

end

/-- What holds of all chunks holds of the stretches of every division. -/
theorem forall_mem_chunk_iff {fits : Nat → Bool} {overlap : Nat} {sep : List α}
    {pieces : List (List α)} {Q : List α → Prop} (hne : ∀ piece ∈ pieces, piece ++ sep ≠ []) :
    (∀ r ∈ chunk fits overlap sep pieces, Q r) ↔ ∀ groups, groups.flatten = pieces →
      Division fits overlap sep groups → ∀ before group after,
        groups = before ++ group :: after → Q (stretch overlap sep before group) := by
  constructor
  · rintro hall groups rfl hdiv before group after hsplit
    refine hall _ ?_
    rw [chunk_of_division hdiv hne]
    exact (mem_overlapped_iff overlap sep).mpr ⟨before, group, after, hsplit, rfl⟩
  · intro hall r hr
    obtain ⟨groups, rfl, hdiv⟩ := exists_division fits overlap sep pieces
    rw [chunk_of_division hdiv hne] at hr
    obtain ⟨before, group, after, hsplit, rfl⟩ := (mem_overlapped_iff overlap sep).mp hr
    exact hall groups rfl hdiv before group after hsplit

/-! ## Lengths -/

section
variable (fits : Nat → Bool) (overlap : Nat) {sep : List α}


/-- The current chunk ends like the pieces so far. -/
theorem rtake_gather (sep : List α) (pieces : List (List α)) :
    (gather fits overlap sep pieces).current.rtake overlap =
      (terminated sep pieces).rtake overlap := by
  induction pieces using List.reverseRecOn with
  | nil => rfl
  | append_singleton pieces piece ih =>
    have hend : ((gather fits overlap sep pieces).current ++ (piece ++ sep)).rtake overlap =
        (terminated sep (pieces ++ [piece])).rtake overlap := by
      rw [← rtake_rtake_append, ih, rtake_rtake_append]
      simp
    rw [gather_concat, add]
    split
    · exact hend
    · rw [rtake_rtake_append]
      exact hend

/-- A closed chunk stays. -/
theorem mem_foldl_add {r : List α} (pieces : List (List α)) (s : Chunks α) (h : r ∈ s.closed) :
    r ∈ (pieces.foldl (add fits overlap sep) s).flush := by
  induction pieces generalizing s with
  | nil => exact Chunks.mem_flush_iff.mpr (Or.inl h)
  | cons piece rest ih =>
    rw [List.foldl_cons]
    refine ih _ ?_
    rw [add]
    split
    · exact h
    · exact Chunks.mem_flush_iff.mpr (Or.inl h)

/-- The current chunk is closed at some time, with more behind it. -/
theorem current_mem_foldl_add (sep : List α) (pieces : List (List α)) (s : Chunks α) (h : s.current ≠ []) :
    ∃ more, s.current ++ more ∈ (pieces.foldl (add fits overlap sep) s).flush := by
  induction pieces generalizing s with
  | nil =>
    refine ⟨[], ?_⟩
    rw [List.foldl_nil, List.append_nil]
    exact Chunks.mem_flush_iff.mpr (Or.inr ⟨h, rfl⟩)
  | cons piece rest ih =>
    rw [List.foldl_cons]
    by_cases hfits : fits (s.current.length + piece.length) = true
    · obtain ⟨more, hmore⟩ := ih ⟨s.closed, s.current ++ (piece ++ sep)⟩ (by simp [h])
      refine ⟨piece ++ sep ++ more, ?_⟩
      rw [add, if_pos hfits]
      simpa using hmore
    · refine ⟨[], ?_⟩
      rw [add, if_neg hfits, List.append_nil]
      exact mem_foldl_add fits overlap rest _ (Chunks.mem_flush_iff.mpr (Or.inr ⟨h, rfl⟩))

theorem trim_append_sep {p : α → Bool} (hp : ∀ a ∈ sep, p a = true) (l piece : List α) :
    trim p (l ++ (piece ++ sep)) = trim p (l ++ piece) := by
  rw [← List.append_assoc, trim_append_of_all hp]

variable {fits} (hmono : ∀ m n, m ≤ n → fits n = true → fits m = true)
include hmono

section Trimmed
variable {p : α → Bool} (hp : ∀ a ∈ sep, p a = true)
include hp

/-- A piece that was added while its chunk fitted, or began a chunk that fits in the end, fits
together with the last elements before it. -/
theorem fits_trim_piece (hsep : sep ≠ []) {before after : List (List α)} {piece : List α}
    (hall : ∀ r ∈ chunk fits overlap sep (before ++ piece :: after),
      fits (trim p r).length = true) :
    fits (trim p ((terminated sep before).rtake overlap ++ piece)).length = true := by
  have hends := rtake_gather fits overlap sep before
  by_cases hfits : fits ((gather fits overlap sep before).current.length + piece.length) = true
  · refine hmono _ _ ?_ hfits
    have hle := length_trim_le (p := p) ((terminated sep before).rtake overlap ++ piece)
    have hcarried := length_rtake_le overlap (gather fits overlap sep before).current
    rw [hends] at hcarried
    rw [List.length_append] at hle
    omega
  · -- the chunk that the piece begins only grows
    let s := add fits overlap sep (gather fits overlap sep before) piece
    have hs : s.current = (terminated sep before).rtake overlap ++ (piece ++ sep) := by
      simp only [s, add, if_neg hfits, hends]
    obtain ⟨more, hmore⟩ := current_mem_foldl_add fits overlap sep after s (by simp [hs, hsep])
    have hfinal : (after.foldl (add fits overlap sep) s).flush =
        chunk fits overlap sep (before ++ piece :: after) := by
      rw [chunk, gather, List.foldl_append]
      rfl
    rw [hfinal] at hmore
    have hgrown := length_trim_le_append (p := p) s.current more
    rw [hs, trim_append_sep hp, ← hs] at hgrown
    exact hmono _ _ hgrown (hall _ hmore)

/-- The loop invariant of the bound: all chunks so far fit. -/
theorem fits_trim_gather {pieces : List (List α)}
    (hpieces : ∀ before piece after, pieces = before ++ piece :: after →
      fits (trim p ((terminated sep before).rtake overlap ++ piece)).length = true)
    (before after : List (List α)) (hsplit : pieces = before ++ after) :
    ∀ r ∈ (gather fits overlap sep before).flush, fits (trim p r).length = true := by
  induction before using List.reverseRecOn generalizing after with
  | nil => simp [gather, Chunks.init, Chunks.flush]
  | append_singleton before piece ih =>
    rw [List.append_assoc, List.singleton_append] at hsplit
    have hflush := ih _ hsplit
    intro r hr
    rw [gather_concat, add] at hr
    split at hr
    · rename_i hfits
      rcases Chunks.mem_flush_iff.mp hr with hr | ⟨-, rfl⟩
      · exact hflush r (Chunks.mem_flush_iff.mpr (Or.inl hr))
      · rw [trim_append_sep hp]
        refine hmono _ _ ?_ hfits
        rw [← List.length_append]
        exact length_trim_le _
    · rcases Chunks.mem_flush_iff.mp hr with hr | ⟨-, rfl⟩
      · exact hflush r hr
      · rw [trim_append_sep hp, rtake_gather]
        exact hpieces before piece after hsplit

/-- **The bound on the chunks.** When the separator is trimmed away, all chunks fit exactly when
each piece does together with the last elements before it. -/
theorem fits_trim_iff (hsep : sep ≠ []) (pieces : List (List α)) :
    (∀ r ∈ chunk fits overlap sep pieces, fits (trim p r).length = true) ↔
      ∀ before piece after, pieces = before ++ piece :: after →
        fits (trim p ((terminated sep before).rtake overlap ++ piece)).length = true := by
  constructor
  · rintro hall before piece after rfl
    exact fits_trim_piece overlap hmono hp hsep hall
  · intro hpieces
    exact fits_trim_gather overlap hmono hp hpieces pieces [] (List.append_nil _).symm

end Trimmed

end

end RagEval.Lib.Chunking
