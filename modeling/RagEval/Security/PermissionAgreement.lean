import RagEval.Api.Auth
import RagEval.Security.Permissions

/-!
# When the three permission deciders agree

The API routes, the permission checker and the roles each match a required
permission against the granted ones. A grant `r:*` covers a permission that
starts with `r:`; the three deciders differ in which covers they honour.
-/

namespace RagEval.Security
open RagEval.Lib RagEval.Api

/-- The grant `g` is `r:*` and the permission `p` starts with `r:`. -/
def Covers (g p : String) : Prop := ∃ r t, g = r ++ ":*" ∧ p = r ++ ":" ++ t

/-- The grant `g` is `r:*` and `r` is the text of `p` before its last colon. -/
def CoversLast (g p : String) : Prop :=
  ∃ r action, Text.rsplit p ':' = some (r, action) ∧ g = r ++ ":*"

theorem CoversLast.covers {g p : String} (h : CoversLast g p) : Covers g p := by
  obtain ⟨r, action, hs, hg⟩ := h
  have hcolon : ':'.toString = ":" := rfl
  exact ⟨r, action, hg, hcolon ▸ Text.rsplit_append hs⟩

/-- The wildcard test of the routes recognises exactly the covering grants. -/
theorem wildcard_test_iff (g p : String) :
    (Text.endswith g ":*" && Text.startswith p (Text.dropEnd g 2 ++ ":")) = true ↔
      Covers g p := by
  rw [Bool.and_eq_true, Text.endswith_iff, Text.startswith_iff]
  constructor
  · rintro ⟨⟨r, rfl⟩, t, ht⟩
    have hd : Text.dropEnd (r ++ ":*") 2 = r := Text.dropEnd_append r ":*"
    rw [hd] at ht
    exact ⟨r, t, rfl, ht⟩
  · rintro ⟨r, t, rfl, rfl⟩
    have hd : Text.dropEnd (r ++ ":*") 2 = r := Text.dropEnd_append r ":*"
    exact ⟨⟨r, rfl⟩, t, by rw [hd]⟩

theorem currentUser_hasPermission_iff (user : CurrentUser) (p : String) :
    user.hasPermission p = true ↔
      p ∈ user.permissions ∨ ∃ g ∈ user.permissions, Covers g p := by
  simp only [CurrentUser.hasPermission, List.any_eq_true, Bool.or_eq_true, decide_eq_true_eq,
    wildcard_test_iff]
  constructor
  · rintro ⟨g, hg, rfl | hc⟩
    · exact Or.inl hg
    · exact Or.inr ⟨g, hg, hc⟩
  · rintro (hp | ⟨g, hg, hc⟩)
    · exact ⟨p, hp, Or.inl rfl⟩
    · exact ⟨g, hg, Or.inr hc⟩

theorem checker_hasPermission_iff (permissions : List String) (p : String) :
    hasPermission permissions (.one (.text p)) = true ↔
      "admin:*" ∈ permissions ∨ p ∈ permissions ∨ ∃ g ∈ permissions, CoversLast g p := by
  simp only [hasPermission, PermissionChecker.check, PermissionChecker.hasPermission,
    PermissionChecker.init, PermissionArg.value, Permission.value, List.mem_toFinset]
  by_cases hs : "admin:*" ∈ permissions
  · simp [hs]
  · simp only [hs, if_false, false_or]
    cases hr : Text.rsplit p ':' with
    | none =>
      have hn : ¬∃ g ∈ permissions, CoversLast g p := by
        rintro ⟨g, _, r, action, h, _⟩
        simp [hr] at h
      simp [hn]
    | some ra =>
      obtain ⟨resource, action⟩ := ra
      have hw : (∃ g ∈ permissions, CoversLast g p) ↔ resource ++ ":*" ∈ permissions := by
        simp only [CoversLast, hr, Option.some.injEq, Prod.mk.injEq]
        constructor
        · rintro ⟨g, hg, r, a, ⟨rfl, rfl⟩, rfl⟩
          exact hg
        · exact fun h => ⟨_, h, resource, action, ⟨rfl, rfl⟩, rfl⟩
      rw [hw]
      by_cases hm : resource ++ ":*" ∈ permissions <;> simp [hm]

theorem role_hasPermission_iff (name : String) (permissions : List String) (p : String) :
    (Role.init name (permissions.map .text)).hasPermission (.text p) = true ↔
      p ∈ permissions ∨ "admin:*" ∈ permissions := by
  simp [Role.hasPermission, Role.init, PermissionArg.value, Permission.value]

/-- The answers of the routes, of the checker and of a role with the same grants. -/
def DecidersAgree (name : String) (permissions : List String) (p : String) : Prop :=
  let route := (CurrentUser.init none none (some permissions) none).hasPermission p
  let checker := hasPermission permissions (.one (.text p))
  let role := (Role.init name (permissions.map .text)).hasPermission (.text p)
  route = checker ∧ checker = role

/-- The three deciders agree exactly on a literally granted permission, and
otherwise when `admin:*` is granted if and only if some grant covers it. -/
theorem decidersAgree_iff (name : String) (permissions : List String) (p : String) :
    DecidersAgree name permissions p ↔
      p ∈ permissions ∨ ("admin:*" ∈ permissions ↔ ∃ g ∈ permissions, Covers g p) := by
  have hroute := currentUser_hasPermission_iff (CurrentUser.init none none (some permissions) none) p
  have hchecker := checker_hasPermission_iff permissions p
  have hrole := role_hasPermission_iff name permissions p
  simp only [CurrentUser.init, Option.getD_some] at hroute
  simp only [DecidersAgree, CurrentUser.init, Option.getD_some, Bool.eq_iff_iff, hroute, hchecker,
    hrole]
  have hlast : (∃ g ∈ permissions, CoversLast g p) → ∃ g ∈ permissions, Covers g p :=
    fun ⟨g, hg, hc⟩ => ⟨g, hg, hc.covers⟩
  by_cases hp : p ∈ permissions
  · simp [hp]
  by_cases hs : "admin:*" ∈ permissions
  · simp [hp, hs]
  -- without `admin:*` the roles grant nothing, so every cover is a disagreement
  simp only [hp, hs, false_or, or_false, false_iff, iff_false]
  exact ⟨fun h hw => h.2 (h.1.mp hw), fun h => ⟨⟨fun hw => absurd hw h, hlast⟩, fun hl => h (hlast hl)⟩⟩

/-- A holder of `admin:*` is refused `eval:read` by the routes and granted it by
the other two; a holder of `eval:*` is refused it by a role alone. -/
theorem deciders_disagree :
    ¬DecidersAgree "super_admin" ["admin:*"] "eval:read" ∧
      ¬DecidersAgree "evaluator" ["eval:*"] "eval:read" := by
  unfold DecidersAgree
  decide +kernel

end RagEval.Security
