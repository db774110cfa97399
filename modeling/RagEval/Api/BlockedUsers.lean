import RagEval.Api.UserAdministration

/-!
# Tokens of deleted and deactivated users

A created user is blocked while deleted or inactive. Neither of the two operations
that issue tokens looks at `is_active`, and a refresh does not look at the user
store at all, so a blocked user can still be issued tokens: exactly by a login with
the credentials of an inactive record, and by a refresh with a token that names a
blocked user. Runs without such steps issue a blocked user no token.
-/

namespace RagEval.Api
open RagEval.Lib RagEval.Core RagEval.Security

/-- A created user that is deleted or inactive. -/
def Blocked (s : State) (id : String) : Prop :=
  id ∈ s.created ∧ ∀ user, s.users.get? id = some user → user.isActive = false

section
variable {τ : Type}

/-- The call deletes the user, or stores `False` as `is_active`. -/
def Blocks (id : String) (e : Event τ) : Prop :=
  (e.call = .deleteUser id ∧ e.reply = .ok .deleted) ∨
  (∃ request response, e.call = .updateUser id request ∧ request.isActive = some false ∧
    e.reply = .ok (.user response)) ∨
  ∃ request tenantId uuid createdAt response,
    e.call = .createUser request tenantId uuid createdAt ∧ uuid.str = id ∧
      request.isActive = false ∧ e.reply = .ok (.user response)

/-- The call stores `True` as `is_active`, or creates a user under the same id again; a call that
is refused does neither. -/
def Reactivates (id : String) (e : Event τ) : Prop :=
  (∃ request response, e.call = .updateUser id request ∧ request.isActive = some true ∧
    e.reply = .ok (.user response)) ∨
  ∃ request tenantId uuid createdAt response,
    e.call = .createUser request tenantId uuid createdAt ∧ uuid.str = id ∧
      e.reply = .ok (.user response)

/-- The call returns an access token whose subject is the user. -/
def Issues (dep : Deployment τ) (id : String) (e : Event τ) : Prop :=
  ∃ response, e.reply = .ok (.tokens response) ∧ IssuedFor dep response.accessToken id

/-- The call does not reach the missing checks: a login does not match the
credentials of an inactive record, a refresh does not present a token that names a
blocked user. -/
def Careful (dep : Deployment τ) (s : State) : Call τ → Prop
  | .login request _ => isEnvAdmin dep.settings request.username request.password = true ∨
      ∀ user, findUser dep.sha256 s.users request.username request.password = some user →
        user.isActive = true
  | .refreshToken request now => ∀ userId,
      verifyRefreshToken dep.jwt dep.settings request.refreshToken now = .ok userId →
        ¬Blocked s userId.str
  | _ => True

/-- The steps whose calls are careful. -/
def CarefulStep (dep : Deployment τ) (s : State) (e : Event τ) (s' : State) : Prop :=
  Step dep s e s' ∧ Careful dep s e.call

variable {dep : Deployment τ} {s s' : State} {e : Event τ} {id : String}

/-- Tokens are issued by a login or a refresh. -/
theorem Step.tokens (h : Step dep s e s') {response : TokenResponse τ}
    (hr : e.reply = .ok (.tokens response)) :
    (∃ request now, e.call = .login request now ∧
      login dep.jwt dep.settings dep.sha256 s.users request now = .ok response) ∨
    ∃ request now, e.call = .refreshToken request now ∧
      refreshToken dep.jwt dep.settings request now = .ok response := by
  cases h.effect with
  | loggedIn request now issued hissued =>
    cases hr
    exact Or.inl ⟨request, now, rfl, hissued⟩
  | refreshed request now issued hissued =>
    cases hr
    exact Or.inr ⟨request, now, rfl, hissued⟩
  | _ => cases hr

/-- **The missing checks, exactly**: a step that issues tokens issues them to a
blocked user if and only if its call is not careful. -/
theorem careful_iff (hjwt : RoundTrips dep.jwt dep.settings) (hs : s.Inv) (h : Step dep s e s')
    {response : TokenResponse τ} (hr : e.reply = .ok (.tokens response)) :
    Careful dep s e.call ↔ ∀ id, Issues dep id e → ¬Blocked s id := by
  have hissues : ∀ id, Issues dep id e ↔ IssuedFor dep response.accessToken id := by
    intro id
    refine ⟨?_, fun hi => ⟨response, hr, hi⟩⟩
    rintro ⟨response', hr', hi⟩
    obtain rfl : response = response' := by simpa [hr] using hr'
    exact hi
  simp only [hissues]
  rcases h.tokens hr with ⟨request, now, hcall, hl⟩ | ⟨request, now, hcall, hl⟩
  · rcases login_cases hs hl with
      ⟨hadmin, userId, email, -, hstr, hi⟩ | ⟨hadmin, user, userId, hfind, hstr, hget, hi⟩
    · simp only [hcall, Careful, hadmin, true_or, issuedFor_iff hjwt hi, hstr, forall_eq, true_iff]
      -- the administrator of the environment was never created
      rintro ⟨hmem, -⟩
      obtain ⟨uuid, huuid⟩ := hs.drawn hmem
      exact adminUserId_ne uuid huuid
    · simp only [hcall, Careful, hadmin, Bool.false_eq_true, false_or, hfind, Option.some.injEq,
        issuedFor_iff hjwt hi, hstr, forall_eq, forall_eq', Blocked, hget, hs.created hget, true_and,
        Bool.not_eq_false]
  · obtain ⟨userId, hv, hi⟩ := refreshToken_ok hl
    simp only [hcall, Careful, hv, Except.ok.injEq, issuedFor_iff hjwt hi, forall_eq, forall_eq']

/-- A blocking call blocks. -/
theorem Step.blocked_of_blocks (hs : s.Inv) (h : Step dep s e s') (hb : Blocks id e) :
    Blocked s' id := by
  obtain ⟨call, reply⟩ := e
  have he := h.effect
  rcases hb with ⟨hcall, hreply⟩ | ⟨request, response, hcall, hactive, hreply⟩ |
    ⟨request, tenantId, uuid, createdAt, response, hcall, hid, hactive, hreply⟩
  all_goals
    simp only at hcall hreply
    subst hcall hreply
  · cases he with
    | deleted userId user hget =>
      refine ⟨hs.created hget, fun user' hget' => ?_⟩
      rw [Dict.get?_erase, if_pos rfl] at hget'
      cases hget'
  · cases he with
    | updated userId request user hget =>
      refine ⟨hs.created hget, fun user' hget' => ?_⟩
      rw [Dict.get?_set, if_pos rfl, Option.some.injEq] at hget'
      rw [← hget', UpdateUserRequest.apply, hactive]
      rfl
  · cases he with
    | created request tenantId uuid createdAt user _ _ _ huser =>
      refine ⟨hid ▸ List.mem_cons_self .., fun user' hget' => ?_⟩
      rw [Dict.get?_set, if_pos hid, Option.some.injEq] at hget'
      rw [← hget', huser, hactive]

/-- A record that is stored leaves the user blocked, if it is another one's or inactive. -/
theorem Blocked.set (hb : Blocked s id) {userId : String} {user : User} {created : List String}
    (hsub : s.created ⊆ created) (huser : userId = id → user.isActive = false) :
    Blocked ⟨s.users.set userId user, created⟩ id := by
  refine ⟨hsub hb.1, fun user' hget => ?_⟩
  obtain ⟨hid, rfl⟩ | ⟨-, hget⟩ := Dict.get?_set_cases hget
  · exact huser hid
  · exact hb.2 user' hget

/-- Other calls than a reactivation leave the user blocked. -/
theorem Step.blocked (h : Step dep s e s') (hr : ¬Reactivates id e) (hb : Blocked s id) :
    Blocked s' id := by
  cases h.effect with
  | rejected call exc => exact hb
  | created request tenantId uuid createdAt user =>
    have hne : uuid.str ≠ id := fun hid => hr (Or.inr ⟨_, _, _, _, _, rfl, hid, rfl⟩)
    exact hb.set (List.subset_cons_self ..) fun hid => absurd hid hne
  | updated userId request user hget =>
    refine hb.set (List.Subset.refl _) fun hid => ?_
    subst hid
    have hne : request.isActive ≠ some true := fun ha => hr (Or.inl ⟨request, _, rfl, ha, rfl⟩)
    cases hactive : request.isActive with
    | none => simpa [UpdateUserRequest.apply, hactive] using hb.2 user hget
    | some active => simpa [UpdateUserRequest.apply, hactive] using hne
  | deleted userId user hget =>
    exact ⟨hb.1, fun user hget => hb.2 user (Dict.get?_of_get?_erase hget)⟩
  | reset userId tempPassword user user' body hget _ _ _ hactive =>
    exact hb.set (List.Subset.refl _) fun hid => hactive.trans (hb.2 user (hid ▸ hget))
  | loggedIn request now response h => exact hb
  | refreshed request now response h => exact hb

/-- **No token while blocked**: in a run of careful steps, from the deletion or the
deactivation of a user until a reactivation, no call issues that user an access
token. -/
theorem blocked_user_gets_no_token (hjwt : RoundTrips dep.jwt dep.settings)
    {before between after : List (Event τ)} {block issue : Event τ}
    (hrun : Run (CarefulStep dep) State.init (before ++ block :: (between ++ issue :: after)) s)
    (hblock : Blocks id block) (hbetween : ∀ e ∈ between, ¬Reactivates id e) :
    ¬Issues dep id issue := by
  obtain ⟨s₁, hbefore, hrun⟩ := Run.append_iff.mp hrun
  obtain ⟨s₂, hstep, hrun⟩ := Run.cons_iff.mp hrun
  obtain ⟨s₃, hmid, hrun⟩ := Run.append_iff.mp hrun
  obtain ⟨s₄, hissue, -⟩ := Run.cons_iff.mp hrun
  have hs₁ : s₁.Inv := State.Inv.init.run (hbefore.mono And.left)
  have hs₃ : s₃.Inv := (hstep.1.change.inv hs₁).run (hmid.mono And.left)
  have hblocked : Blocked s₃ id :=
    (hmid.mono And.left).invariant_of_labels (fun hr hb h => h.blocked hr hb) hbetween
      (hstep.1.blocked_of_blocks hs₁ hblock)
  intro hi
  have ⟨response, hr, _⟩ := hi
  exact (careful_iff hjwt hs₃ hissue.1 hr).mp hissue.2 id hi hblocked

end

namespace Demo

def logIn (now : Nat) (reply : Except Raised (Reply SignedToken)) : Event SignedToken :=
  ⟨.login ⟨"alice", "correct horse"⟩ now, reply⟩

def deleteAlice : Event SignedToken := ⟨.deleteUser aliceId.str, .ok .deleted⟩

def deactivateAlice : Event SignedToken where
  call := .updateUser aliceId.str { isActive := some false }
  reply := .ok (.user { alice with isActive := false }.response)

/-- The refresh presents the refresh token of a login a minute before. -/
def refreshAlice : Event SignedToken where
  call := .refreshToken ⟨(aliceTokens "alice@example" ["eval:read", "workflow:read"]
    1000000000).refreshToken⟩ 1060000000
  reply := .ok (.tokens (aliceTokens "admin@local" adminPermissions 1060000000))

def inactiveState : State :=
  ⟨Dict.empty.set aliceId.str { alice with isActive := false }, [aliceId.str]⟩

def deletedState : State := ⟨Dict.empty, [aliceId.str]⟩

def refusedLogin : Event SignedToken :=
  logIn 1000000000 (.error (unauthorized "Invalid credentials"))

/-- An update of a user who is not there. -/
def reactivateDeleted : Event SignedToken where
  call := .updateUser aliceId.str { isActive := some true }
  reply := .error (userNotFound aliceId.str)

def loginAdmin : Event SignedToken where
  call := .login ⟨"admin", "admin"⟩ 1060000000
  reply := .ok (.tokens (issuedTokens adminId "admin@local" adminPermissions 1060000000))

def loggedInReply (now : Nat) : Except Raised (Reply SignedToken) :=
  .ok (.tokens (aliceTokens "alice@example" ["eval:read", "workflow:read"] now))

theorem login_step {user : User} {s : State} {now : Nat}
    (h : now + 7 * 24 * 60 * 60 * 1000000 ≤ maxDatetime)
    (hfind : findUser deployment.sha256 s.users "alice" "correct horse" = some user)
    (hid : user.userId = aliceId.str) :
    Step deployment s (logIn now (.ok (.tokens (aliceTokens user.email user.permissions now)))) s :=
  congrArg (fun r => (Except.map Reply.tokens r, s)) (login_alice h hfind hid)

theorem refresh_step (s : State) : Step deployment s refreshAlice s :=
  congrArg (fun r => (Except.map Reply.tokens r, s))
    (refresh_alice (by decide) (by decide) (by decide))

theorem issues_alice {e : Event SignedToken} {email : String} {permissions : List String} {now : Nat}
    (h : now + 7 * 24 * 60 * 60 * 1000000 ≤ maxDatetime)
    (he : e.reply = .ok (.tokens (aliceTokens email permissions now))) :
    Issues deployment aliceId.str e :=
  ⟨_, he, (issuedFor_iff roundTrips (issueTokens_alice email permissions h)).mpr rfl⟩

end Demo

open Demo in
/-- Alice is deleted; she cannot be reactivated, nor log in; then the administrator logs in. -/
theorem blocked_user_gets_no_token_alice :
    ¬Issues deployment aliceId.str loginAdmin := by
  have h : (1000000000 : Nat) + 7 * 24 * 60 * 60 * 1000000 ≤ maxDatetime := by decide
  have hlogin := @login_step alice aliceState _ h rfl rfl
  have hdelete : Step deployment aliceState deleteAlice deletedState := rfl
  have hreactivate : Step deployment deletedState reactivateDeleted deletedState := rfl
  have hrefused : Step deployment deletedState refusedLogin deletedState := rfl
  have hadmin : Step deployment deletedState loginAdmin deletedState :=
    congrArg (fun r => (Except.map Reply.tokens r, deletedState)) (login_admin _ (by decide))
  have hcareful : Careful deployment deletedState refusedLogin.call :=
    Or.inr fun user hfind => (nomatch hfind)
  have hactive : Careful deployment aliceState (logIn 1000000000 (loggedInReply 1000000000)).call :=
    Or.inr fun user hfind => by
      obtain rfl : alice = user := Option.some.inj hfind
      rfl
  have hrun : Run (CarefulStep deployment) State.init
      ([createAlice, logIn 1000000000 (loggedInReply 1000000000)] ++
        deleteAlice :: ([reactivateDeleted, refusedLogin] ++ loginAdmin :: [])) deletedState :=
    .cons ⟨createAlice_step, trivial⟩ (.cons ⟨hlogin, hactive⟩ (.cons ⟨hdelete, trivial⟩
      (.cons ⟨hreactivate, trivial⟩ (.cons ⟨hrefused, hcareful⟩ (.single ⟨hadmin, Or.inl rfl⟩)))))
  refine blocked_user_gets_no_token roundTrips hrun (Or.inl ⟨rfl, rfl⟩) ?_
  simp [Reactivates, reactivateDeleted, refusedLogin, logIn]

open Demo in
/-- Alice is deleted after her login and refreshes; deactivated, she logs in again. -/
theorem blocked_user_gets_token :
    (Run (Step deployment) State.init
        ([createAlice, logIn 1000000000 (loggedInReply 1000000000)] ++
          deleteAlice :: ([] ++ refreshAlice :: [])) deletedState ∧
      Blocks aliceId.str deleteAlice ∧ Issues deployment aliceId.str refreshAlice) ∧
    Run (Step deployment) State.init
        ([createAlice] ++ deactivateAlice ::
          ([] ++ logIn 1000000000 (loggedInReply 1000000000) :: [])) inactiveState ∧
      Blocks aliceId.str deactivateAlice ∧
      Issues deployment aliceId.str (logIn 1000000000 (loggedInReply 1000000000)) := by
  have h : (1000000000 : Nat) + 7 * 24 * 60 * 60 * 1000000 ≤ maxDatetime := by decide
  have hactive : findUser deployment.sha256 aliceState.users "alice" "correct horse" =
      some alice := by
    rfl
  have hinactive : findUser deployment.sha256 inactiveState.users "alice" "correct horse" =
      some { alice with isActive := false } := by
    rfl
  refine ⟨⟨?_, Or.inl ⟨rfl, rfl⟩, issues_alice (by decide) rfl⟩, ?_,
    Or.inr (Or.inl ⟨_, _, rfl, rfl, rfl⟩), issues_alice h rfl⟩
  · have hdelete : Step deployment aliceState deleteAlice deletedState := rfl
    have hlogin := login_step h hactive rfl
    exact .cons createAlice_step (.cons hlogin
      (.cons hdelete (.single (refresh_step deletedState))))
  · have hdeactivate : Step deployment aliceState deactivateAlice inactiveState := rfl
    have hlogin := login_step h hinactive rfl
    exact .cons createAlice_step (.cons hdeactivate (.single hlogin))

end RagEval.Api
