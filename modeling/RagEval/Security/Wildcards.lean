import RagEval.Security.PermissionAgreement

/-!
# The reach of a wildcard

A wildcard permission that a user holds, by whatever grant, gives every permission below it, and
no grant gives a permission of another resource. The resource of a permission is its text before
the first colon, while a grant `r:*` may have colons in `r`.

## Main results

- `covers_of_covers_wildcard` — a grant that covers `r:*` covers everything below `r`
- `Covers.resource_eq` — a grant covers permissions of its own resource only
- `hasPermission_wildcard` — both, for the permissions of a user
-/

namespace RagEval.Security
open RagEval.Lib RagEval.Api

/-- The text before the first colon, or all of it. -/
def resource (permission : String) : String :=
  String.ofList (permission.toList.takeWhile (· ≠ ':'))

theorem takeWhile_append_cons_of_neg {α : Type*} {f : α → Bool} {a : α} (ha : f a = false)
    (l t : List α) : (l ++ a :: t).takeWhile f = l.takeWhile f := by
  induction l with
  | nil => rw [List.nil_append, List.takeWhile_cons, ha, List.takeWhile_nil]; rfl
  | cons b l ih => rw [List.cons_append, List.takeWhile_cons, List.takeWhile_cons, ih]

/-- What follows a colon does not change the resource. -/
theorem resource_append (r t : String) : resource (r ++ ":" ++ t) = resource r := by
  have hlist : (r ++ ":" ++ t).toList = r.toList ++ ':' :: t.toList := by simp
  rw [resource, hlist, takeWhile_append_cons_of_neg (by decide), resource]

theorem Covers.resource_eq {g p : String} (h : Covers g p) : resource g = resource p := by
  obtain ⟨r, t, rfl, rfl⟩ := h
  have hwildcard : r ++ ":*" = r ++ ":" ++ "*" := String.toList_inj.mp (by simp)
  rw [hwildcard, resource_append, resource_append]

/-- A colon-terminated start of `r:*` is a start of `r:`: the asterisk is no colon. -/
theorem exists_append_of_append_eq {r r' t : List Char}
    (h : r' ++ ':' :: t = r ++ [':', '*']) (x : List Char) :
    ∃ t', r ++ ':' :: x = r' ++ ':' :: t' := by
  obtain ⟨w, rfl, hw⟩ | ⟨w, rfl, hw⟩ := List.append_eq_append_iff.mp h
  · cases w with
    | nil => exact ⟨x, by rw [List.append_nil]⟩
    | cons c w =>
      obtain ⟨rfl, -⟩ := List.cons.inj hw
      exact ⟨w ++ ':' :: x, by rw [List.append_assoc, List.cons_append]⟩
  · cases w with
    | nil => exact ⟨x, by rw [List.append_nil]⟩
    | cons c w =>
      -- the colon would have to be the asterisk, or stand after it
      exfalso
      rw [List.cons_append, List.cons.injEq] at hw
      cases w with
      | nil => exact absurd (List.cons.inj hw.2).1 (by decide)
      | cons c w =>
        rw [List.cons_append, List.cons.injEq] at hw
        exact List.cons_ne_nil _ _ (List.append_eq_nil_iff.mp hw.2.2.symm).2

theorem covers_of_covers_wildcard {g r : String} (h : Covers g (r ++ ":*")) (x : String) :
    Covers g (r ++ ":" ++ x) := by
  obtain ⟨r', t, rfl, heq⟩ := h
  have hlist : r'.toList ++ ':' :: t.toList = r.toList ++ [':', '*'] := by
    have hlist := congrArg String.toList heq
    simpa using hlist.symm
  obtain ⟨t', ht'⟩ := exists_append_of_append_eq hlist x.toList
  refine ⟨r', String.ofList t', rfl, String.toList_inj.mp ?_⟩
  simpa using ht'

section User
variable (user : CurrentUser)

theorem hasPermission_of_wildcard {r : String} (h : user.hasPermission (r ++ ":*") = true)
    (x : String) : user.hasPermission (r ++ ":" ++ x) = true := by
  rw [currentUser_hasPermission_iff] at h ⊢
  obtain hgranted | ⟨g, hg, hcovers⟩ := h
  · exact .inr ⟨r ++ ":*", hgranted, r, x, rfl, rfl⟩
  · exact .inr ⟨g, hg, covers_of_covers_wildcard hcovers x⟩

/-- Permissions are granted within their resource. -/
theorem exists_resource_eq_of_hasPermission {p : String} (h : user.hasPermission p = true) :
    ∃ g ∈ user.permissions, resource g = resource p := by
  obtain hgranted | ⟨g, hg, hcovers⟩ := (currentUser_hasPermission_iff user p).mp h
  · exact ⟨p, hgranted, rfl⟩
  · exact ⟨g, hg, hcovers.resource_eq⟩

/-- The users that pass the check for administrators are those with the wildcard permission. -/
theorem requireAdmin_ok_iff :
    requireAdmin.call user = .ok user ↔ user.hasPermission "admin:*" = true := by
  have hany : requireAdmin.requiredPermissions.any user.hasPermission =
      user.hasPermission "admin:*" := Bool.or_false _
  rw [PermissionChecker.call]
  simp only [hany, show requireAdmin.requireAll = false from rfl, Bool.false_eq_true, if_false]
  cases user.hasPermission "admin:*" <;> simp

/-- A wildcard that a user has gives every permission below it, so an administrator has every
`admin:` permission, and nothing is granted outside the resources of the grants. -/
theorem hasPermission_wildcard :
    (∀ r x, user.hasPermission (r ++ ":*") = true →
        user.hasPermission (r ++ ":" ++ x) = true) ∧
      (requireAdmin.call user = .ok user → ∀ x, user.hasPermission ("admin:" ++ x) = true) ∧
      ∀ p, (∀ g ∈ user.permissions, resource g ≠ resource p) → user.hasPermission p = false := by
  refine ⟨fun r x h => hasPermission_of_wildcard user h x, fun hadmin x => ?_, fun p hp => ?_⟩
  · exact hasPermission_of_wildcard user (r := "admin") ((requireAdmin_ok_iff user).mp hadmin) x
  · by_contra hgranted
    rw [Bool.not_eq_false] at hgranted
    obtain ⟨g, hg, hresource⟩ := exists_resource_eq_of_hasPermission user hgranted
    exact hp g hg hresource

theorem hasPermission_wildcard_admin :
    (CurrentUser.init none none (some ["admin:*"]) none).hasPermission "admin:users:read" = true ∧
      (CurrentUser.init none none (some ["admin:*"]) none).hasPermission "administrator:read" =
        false := by
  obtain ⟨hbelow, -, houtside⟩ :=
    hasPermission_wildcard (CurrentUser.init none none (some ["admin:*"]) none)
  exact ⟨hbelow "admin" "users:read" (by decide +kernel),
    houtside "administrator:read" (by decide +kernel)⟩

end User

end RagEval.Security
