import RagEval.Api.UserAdministration

/-!
# What a refreshed token grants

The access tokens of one login and of the refreshes that follow it, against the
permissions stored for the user who logged in.
-/

namespace RagEval.Api
open RagEval.Lib RagEval.Core RagEval.Security

variable {τ : Type}

/-- Whenever the token decodes, its permissions are all among `permissions`. -/
def GrantsWithin (dep : Deployment τ) (token : τ) (permissions : List String) : Prop :=
  ∀ now claims, decodeToken dep.jwt dep.settings token now = .ok claims →
    ∃ granted : List String, claims.get? "permissions" = some (.list (granted.map .str)) ∧
      granted ⊆ permissions

/-- The responses, latest first, of one login as the user with id `userId` followed
by refreshes that each present the refresh token of the response before. -/
inductive Chain (dep : Deployment τ) (users : UserStore) (userId : String) :
    List (TokenResponse τ) → Prop
  | login {request : LoginRequest} {now : Nat} {response : TokenResponse τ}
      (hlogin : login dep.jwt dep.settings dep.sha256 users request now = .ok response)
      (hfor : IssuedFor dep response.accessToken userId) : Chain dep users userId [response]
  | refresh {now : Nat} {last response : TokenResponse τ} {earlier : List (TokenResponse τ)}
      (hchain : Chain dep users userId (last :: earlier))
      (hrefresh : refreshToken dep.jwt dep.settings ⟨last.refreshToken⟩ now = .ok response) :
      Chain dep users userId (response :: last :: earlier)

variable {dep : Deployment τ}

/-- An issued token grants within a list exactly when its permissions are in it. -/
theorem grantsWithin_iff (hjwt : RoundTrips dep.jwt dep.settings) {userId : UUID} {email : String}
    {granted permissions : List String} {now : Nat} {response : TokenResponse τ}
    (h : issueTokens dep.jwt dep.settings userId (userClaims email granted) now = .ok response) :
    GrantsWithin dep response.accessToken permissions ↔ granted ⊆ permissions := by
  constructor
  · intro hw
    obtain ⟨claims, hd⟩ := issueTokens_decodes hjwt h
    obtain ⟨granted', hg, hsub⟩ := hw now claims hd
    have hlist := (issueTokens_claims hjwt h hd).2.symm.trans hg
    simp only [Option.some.injEq, Value.list.injEq] at hlist
    have hinj : Function.Injective Value.str := fun a b hab => Value.str.inj hab
    rwa [List.map_injective_iff.mpr hinj hlist]
  · intro hsub now' claims hd
    exact ⟨granted, (issueTokens_claims hjwt h hd).2, hsub⟩

/-- The login of a chain grants exactly the stored permissions of its user. -/
theorem login_grantsWithin (hjwt : RoundTrips dep.jwt dep.settings) {s : State} (hs : s.Inv)
    {user : User} (huser : s.users.get? user.userId = some user) {request : LoginRequest}
    {now : Nat} {response : TokenResponse τ}
    (h : login dep.jwt dep.settings dep.sha256 s.users request now = .ok response)
    (hfor : IssuedFor dep response.accessToken user.userId) :
    GrantsWithin dep response.accessToken user.permissions := by
  rcases login_cases hs h with ⟨-, userId, email, -, hstr, hi⟩ | ⟨-, user', userId, -, hstr, hget, hi⟩
  · -- the administrator of the environment is no stored user
    obtain ⟨uuid, huuid⟩ := hs.drawn (hs.created huser)
    have hid := (issuedFor_iff hjwt hi).mp hfor
    exact absurd (hstr.symm.trans (hid.symm.trans huuid)) (adminUserId_ne uuid)
  · have hid := (issuedFor_iff hjwt hi).mp hfor
    rw [← hstr, ← hid, huser, Option.some.injEq] at hget
    rw [grantsWithin_iff hjwt hi, hget]
    exact List.Subset.refl _

/-- **What a chain grants.** Over every reachable store, the access tokens of a
login and its refreshes stay within the permissions of the user exactly when there
was no refresh or the user holds the administrator's permissions. -/
theorem chain_grantsWithin_iff (hjwt : RoundTrips dep.jwt dep.settings) {events : List (Event τ)}
    {s : State} (hrun : Run (Step dep) State.init events s) {user : User}
    (huser : s.users.get? user.userId = some user) {responses : List (TokenResponse τ)}
    (hchain : Chain dep s.users user.userId responses) :
    (∀ response ∈ responses, GrantsWithin dep response.accessToken user.permissions) ↔
      responses.length = 1 ∨ adminPermissions ⊆ user.permissions := by
  have hs := State.Inv.init.run hrun
  induction hchain with
  | login hlogin hfor =>
    have := login_grantsWithin hjwt hs huser hlogin hfor
    simpa using this
  | refresh hchain hrefresh ih =>
    obtain ⟨userId, -, hi⟩ := refreshToken_ok hrefresh
    rw [List.forall_mem_cons, grantsWithin_iff hjwt hi]
    refine (and_congr_right' ih).trans ?_
    simp only [List.length_cons]
    constructor
    · exact fun h => Or.inr h.1
    · rintro (h | h)
      · omega
      · exact ⟨h, Or.inr h⟩

namespace Demo

/-- Alice logs in, and refreshes a minute later. -/
def loggedIn : TokenResponse SignedToken :=
  aliceTokens "alice@example" ["eval:read", "workflow:read"] 1000000000

def refreshed : TokenResponse SignedToken :=
  aliceTokens "admin@local" adminPermissions 1060000000

theorem loggedIn_chain : Chain deployment aliceState.users alice.userId [loggedIn] := by
  have h : (1000000000 : Nat) + 7 * 24 * 60 * 60 * 1000000 ≤ maxDatetime := by decide
  have hissued := issueTokens_alice "alice@example" ["eval:read", "workflow:read"] h
  have hfind : findUser deployment.sha256 aliceState.users "alice" "correct horse" = some alice := by
    rfl
  exact .login (login_alice h hfind rfl) ((issuedFor_iff roundTrips hissued).mpr rfl)

theorem refreshed_chain : Chain deployment aliceState.users alice.userId [refreshed, loggedIn] :=
  .refresh loggedIn_chain (refresh_alice (by decide) (by decide) (by decide))

/-- Alice is given the permissions of the administrator. -/
def promotedAlice : User := { alice with permissions := adminPermissions }

def promoteAlice : Event SignedToken where
  call := .updateUser aliceId.str
    { permissions := some adminPermissions, password_length := UpdateUserRequest.no_password }
  reply := .ok (.user promotedAlice.response)

def promotedState : State := ⟨Dict.empty.set aliceId.str promotedAlice, [aliceId.str]⟩

def promotedLogin : TokenResponse SignedToken :=
  aliceTokens "alice@example" adminPermissions 1000000000

theorem promoted_chain :
    Chain deployment promotedState.users promotedAlice.userId [refreshed, promotedLogin] := by
  have h : (1000000000 : Nat) + 7 * 24 * 60 * 60 * 1000000 ≤ maxDatetime := by decide
  have hissued := issueTokens_alice "alice@example" adminPermissions h
  have hfind : findUser deployment.sha256 promotedState.users "alice" "correct horse" =
      some promotedAlice := rfl
  have hlogin : Chain deployment promotedState.users promotedAlice.userId [promotedLogin] :=
    .login (login_alice h hfind rfl) ((issuedFor_iff roundTrips hissued).mpr rfl)
  exact .refresh hlogin (refresh_alice (by decide) (by decide) (by decide))

end Demo

open Demo in
/-- Alice refreshes with the administrator's permissions stored for her. -/
theorem chain_grantsWithin_alice :
    GrantsWithin deployment promotedLogin.accessToken promotedAlice.permissions ∧
      GrantsWithin deployment refreshed.accessToken promotedAlice.permissions := by
  have hpromote : Step deployment aliceState promoteAlice promotedState := rfl
  have hrun : Run (Step deployment) State.init [createAlice, promoteAlice] promotedState :=
    .cons createAlice_step (.single hpromote)
  have hall := (chain_grantsWithin_iff roundTrips hrun rfl promoted_chain).mpr
    (Or.inr (List.Subset.refl _))
  exact ⟨hall promotedLogin (by simp), hall refreshed (List.mem_cons_self ..)⟩

open Demo in
/-- Alice, stored with two read permissions, refreshes into the administrator's. -/
theorem refresh_exceeds_stored :
    Run (Step deployment) State.init [createAlice] aliceState ∧
      aliceState.users.get? alice.userId = some alice ∧
      Chain deployment aliceState.users alice.userId [refreshed, loggedIn] ∧
      ¬∀ response ∈ [refreshed, loggedIn],
        GrantsWithin deployment response.accessToken alice.permissions := by
  refine ⟨.single createAlice_step, rfl, refreshed_chain, fun hall => ?_⟩
  have hissued := issueTokens_alice "admin@local" adminPermissions
    (show 1060000000 + 7 * 24 * 60 * 60 * 1000000 ≤ maxDatetime by decide)
  have := (grantsWithin_iff roundTrips hissued).mp (hall refreshed (List.mem_cons_self ..))
  exact absurd this (by decide)

end RagEval.Api
