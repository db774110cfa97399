import RagEval.Api.AuthRouter
import RagEval.Lib.Runs

/-!
# Runs of the user administration

The operations of the admin router and of the auth router as the steps of one
system, and what holds of the user store after every run of them.

## Main definitions

- `Call`, `exec`, `Step` — one operation of a running service
- `Effect` — what a step says of the states before and after it
- `State.Inv` — every record is stored under its own id, which `uuid4` drew
-/

namespace RagEval.Api
open RagEval.Lib RagEval.Core RagEval.Security

/-- What one running service is configured with; `environment` is the value of `ENVIRONMENT`. -/
structure Deployment (τ : Type) where
  jwt : PyJwt τ
  settings : Settings
  sha256 : String → String
  appVersion : String := "1.0.0"
  environment : String := "dev"

inductive Call (τ : Type) where
  | createUser (request : CreateUserRequest) (tenantId : String) (uuid : UUID4) (createdAt : String)
  | updateUser (userId : String) (request : UpdateUserRequest)
  | deleteUser (userId : String)
  | resetUserPassword (userId tempPassword : String)
  | login (request : LoginRequest) (now : Nat)
  | refreshToken (request : RefreshRequest τ) (now : Nat)

inductive Reply (τ : Type) where
  | user (response : UserResponse)
  | deleted
  | passwordReset (body : Dict String String)
  | tokens (response : TokenResponse τ)

/-- The user store, with the ids of all users ever created. -/
structure State where
  users : UserStore
  created : List String

def State.init : State := ⟨Dict.empty, []⟩

section
variable {τ : Type} (dep : Deployment τ)

/-- Run one call: the reply and the state after it. -/
def exec (s : State) : Call τ → Except Raised (Reply τ) × State
  | .createUser request tenantId uuid createdAt =>
    match createUser dep.sha256 s.users request tenantId uuid createdAt with
    | (.ok response, users) => (.ok (.user response), ⟨users, response.userId :: s.created⟩)
    | (.error e, users) => (.error e, ⟨users, s.created⟩)
  | .updateUser userId request =>
    let (reply, users) := updateUser dep.sha256 s.users userId request
    (reply.map .user, ⟨users, s.created⟩)
  | .deleteUser userId =>
    let (reply, users) := deleteUser s.users userId
    (reply.map fun _ => .deleted, ⟨users, s.created⟩)
  | .resetUserPassword userId tempPassword =>
    let (reply, users) := resetUserPassword dep.sha256 s.users userId tempPassword
    (reply.map .passwordReset, ⟨users, s.created⟩)
  | .login request now =>
    ((login dep.jwt dep.settings dep.sha256 s.users request now).map .tokens, s)
  | .refreshToken request now => ((refreshToken dep.jwt dep.settings request now).map .tokens, s)

/-- A call and what it returned or raised. -/
structure Event (τ : Type) where
  call : Call τ
  reply : Except Raised (Reply τ)

def Step (s : State) (e : Event τ) (s' : State) : Prop := exec dep s e.call = (e.reply, s')

end

/-- What an operation can do to the state. -/
inductive Change (s : State) : State → Prop
  | none : Change s s
  | created (uuid : UUID4) (user : User) (hid : user.userId = uuid.str) :
      Change s ⟨s.users.set uuid.str user, uuid.str :: s.created⟩
  | patched (id : String) (user user' : User) (hget : s.users.get? id = some user)
      (hid : user'.userId = user.userId) : Change s ⟨s.users.set id user', s.created⟩
  | deleted (id : String) : Change s ⟨s.users.erase id, s.created⟩

section
variable {τ : Type} {dep : Deployment τ}

/-- What a call and its reply say of the state before and after: the call was rejected, it wrote
or deleted one record, or it issued tokens. -/
inductive Effect (dep : Deployment τ) (s : State) : Event τ → State → Prop
  | rejected (call : Call τ) (exc : Raised) : Effect dep s ⟨call, .error exc⟩ s
  | created (request : CreateUserRequest) (tenantId : String) (uuid : UUID4) (createdAt : String)
      (user : User) (hid : user.userId = uuid.str) (hname : user.username = request.username)
      (hhash : user.passwordHash = hashPassword dep.sha256 request.password)
      (hactive : user.isActive = request.isActive)
      (hfresh : ∀ id old, s.users.get? id = some old → old.username ≠ user.username) :
      Effect dep s ⟨.createUser request tenantId uuid createdAt, .ok (.user user.response)⟩
        ⟨s.users.set uuid.str user, uuid.str :: s.created⟩
  | updated (userId : String) (request : UpdateUserRequest) (user : User)
      (hget : s.users.get? userId = some user) :
      Effect dep s
        ⟨.updateUser userId request, .ok (.user (request.apply dep.sha256 user).response)⟩
        ⟨s.users.set userId (request.apply dep.sha256 user), s.created⟩
  | deleted (userId : String) (user : User) (hget : s.users.get? userId = some user) :
      Effect dep s ⟨.deleteUser userId, .ok .deleted⟩ ⟨s.users.erase userId, s.created⟩
  | reset (userId tempPassword : String) (user user' : User) (body : Dict String String)
      (hget : s.users.get? userId = some user) (hid : user'.userId = user.userId)
      (hname : user'.username = user.username)
      (hhash : user'.passwordHash = hashPassword dep.sha256 tempPassword)
      (hactive : user'.isActive = user.isActive) :
      Effect dep s ⟨.resetUserPassword userId tempPassword, .ok (.passwordReset body)⟩
        ⟨s.users.set userId user', s.created⟩
  | loggedIn (request : LoginRequest) (now : Nat) (response : TokenResponse τ)
      (h : login dep.jwt dep.settings dep.sha256 s.users request now = .ok response) :
      Effect dep s ⟨.login request now, .ok (.tokens response)⟩ s
  | refreshed (request : RefreshRequest τ) (now : Nat) (response : TokenResponse τ)
      (h : refreshToken dep.jwt dep.settings request now = .ok response) :
      Effect dep s ⟨.refreshToken request now, .ok (.tokens response)⟩ s

theorem Step.effect {s s' : State} {e : Event τ} (h : Step dep s e s') : Effect dep s e s' := by
  obtain ⟨call, reply⟩ := e
  have he : exec dep s call = (reply, s') := h
  clear h
  cases call with
  | createUser request tenantId uuid createdAt =>
    rw [exec, createUser] at he
    split_ifs at he with htaken
    · cases he
      exact .rejected _ _
    · cases he
      refine .created request tenantId uuid createdAt _ rfl rfl rfl rfl fun id old hget hsame => ?_
      apply htaken
      rw [List.any_eq_true]
      exact ⟨old, (Dict.mem_values_iff _ _).mpr ⟨id, hget⟩, decide_eq_true hsame⟩
  | updateUser userId request =>
    rw [exec, updateUser] at he
    cases hget : s.users.get? userId with
    | none =>
      rw [hget] at he
      cases he
      exact .rejected _ _
    | some user =>
      rw [hget] at he
      cases he
      exact .updated userId request user hget
  | deleteUser userId =>
    rw [exec, deleteUser] at he
    split_ifs at he with hmem
    · cases he
      obtain ⟨user, hget⟩ := (Dict.mem_keys_iff _ _).mp hmem
      exact .deleted userId user hget
    · cases he
      exact .rejected _ _
  | resetUserPassword userId tempPassword =>
    rw [exec, resetUserPassword] at he
    cases hget : s.users.get? userId with
    | none =>
      rw [hget] at he
      cases he
      exact .rejected _ _
    | some user =>
      rw [hget] at he
      cases he
      exact .reset userId tempPassword user _ _ hget rfl rfl rfl rfl
  | login request now =>
    rw [exec] at he
    cases hlogin : login dep.jwt dep.settings dep.sha256 s.users request now with
    | error exc =>
      rw [hlogin] at he
      cases he
      exact .rejected _ _
    | ok response =>
      rw [hlogin] at he
      cases he
      exact .loggedIn request now response hlogin
  | refreshToken request now =>
    rw [exec] at he
    cases hrefresh : refreshToken dep.jwt dep.settings request now with
    | error exc =>
      rw [hrefresh] at he
      cases he
      exact .rejected _ _
    | ok response =>
      rw [hrefresh] at he
      cases he
      exact .refreshed request now response hrefresh

theorem Step.change {s s' : State} {e : Event τ} (h : Step dep s e s') : Change s s' := by
  cases h.effect with
  | rejected call exc => exact .none
  | created request tenantId uuid createdAt user hid => exact .created uuid user hid
  | updated userId request user hget => exact .patched userId user _ hget rfl
  | deleted userId user hget => exact .deleted userId
  | reset userId tempPassword user user' body hget hid => exact .patched userId user user' hget hid
  | loggedIn request now response h => exact .none
  | refreshed request now response h => exact .none

/-- Every record is stored under its own id, every stored id was created, and every
created id was drawn by `uuid4`. -/
structure State.Inv (s : State) : Prop where
  userId : ∀ {id user}, s.users.get? id = some user → user.userId = id
  created : ∀ {id user}, s.users.get? id = some user → id ∈ s.created
  drawn : ∀ {id}, id ∈ s.created → ∃ uuid : UUID4, id = uuid.str

theorem State.Inv.init : State.init.Inv :=
  ⟨fun h => (nomatch h), fun h => (nomatch h), fun h => (nomatch h)⟩

theorem Change.inv {s s' : State} (h : Change s s') (hs : s.Inv) : s'.Inv := by
  cases h with
  | none => exact hs
  | created uuid user hid =>
    refine ⟨?_, ?_, ?_⟩
    · intro id' user' h
      obtain ⟨rfl, rfl⟩ | ⟨-, h⟩ := Dict.get?_set_cases h
      · exact hid
      · exact hs.userId h
    · intro id' user' h
      obtain ⟨rfl, rfl⟩ | ⟨-, h⟩ := Dict.get?_set_cases h
      · exact List.mem_cons_self
      · exact List.mem_cons_of_mem _ (hs.created h)
    · intro id' h
      rcases List.mem_cons.mp h with rfl | h
      · exact ⟨uuid, rfl⟩
      · exact hs.drawn h
  | patched id user user' hget hid =>
    refine ⟨?_, ?_, fun h => hs.drawn h⟩
    · intro id' user'' h
      obtain ⟨rfl, rfl⟩ | ⟨-, h⟩ := Dict.get?_set_cases h
      · exact hid.trans (hs.userId hget)
      · exact hs.userId h
    · intro id' user'' h
      obtain ⟨rfl, rfl⟩ | ⟨-, h⟩ := Dict.get?_set_cases h
      · exact hs.created hget
      · exact hs.created h
  | deleted id =>
    exact ⟨fun h => hs.userId (Dict.get?_of_get?_erase h),
      fun h => hs.created (Dict.get?_of_get?_erase h), fun h => hs.drawn h⟩

theorem State.Inv.run {events : List (Event τ)} {s s' : State} (hs : s.Inv)
    (h : Run (Step dep) s events s') : s'.Inv :=
  h.invariant (fun hI hstep => hstep.change.inv hI) hs

/-- The administrator of the environment has an id that `uuid4` never draws. -/
theorem adminUserId_ne (uuid : UUID4) : adminUserId ≠ uuid.str := by
  intro h
  obtain ⟨admin, hadmin, hversion⟩ :
      ∃ admin : UUID, UUID.parse adminUserId = .ok admin ∧ admin.version = 0 :=
    ⟨⟨List.replicate 31 0 ++ [1], rfl⟩, by decide, by decide⟩
  rw [h, UUID.parse_str] at hadmin
  have := uuid.version_eq
  rw [Except.ok.inj hadmin, hversion] at this
  exact absurd this (by decide)

/-- A found user is stored under some id and has the credentials. -/
theorem findUser_some {sha256 : String → String} {users : UserStore} {username password : String}
    {user : User} (h : findUser sha256 users username password = some user) :
    (∃ id, users.get? id = some user) ∧ user.username = username ∧
      verifyPassword sha256 password user.passwordHash = true := by
  have hmem := (Dict.mem_values_iff _ _).mp (List.mem_of_find?_eq_some h)
  have hp := List.find?_some h
  simp only [Bool.and_eq_true, decide_eq_true_eq] at hp
  exact ⟨hmem, hp⟩

/-! ## What issued tokens say -/

section
variable {jwt : PyJwt τ} {settings : Settings}

theorem issueTokens_ok {userId : UUID} {claims : Dict String Value} {now : Nat}
    {response : TokenResponse τ} (h : issueTokens jwt settings userId claims now = .ok response) :
    createAccessToken jwt settings userId claims now = .ok response.accessToken ∧
      createRefreshToken jwt settings userId now = .ok response.refreshToken := by
  obtain ⟨access, ha, h⟩ := bind_ok h
  obtain ⟨refresh, hr, h⟩ := bind_ok h
  obtain rfl := Except.ok.inj h
  exact ⟨ha, hr⟩

/-- The subject and the permissions an issued access token decodes to. -/
theorem issueTokens_claims (hjwt : RoundTrips jwt settings) {userId : UUID} {email : String}
    {permissions : List String} {now now' : Nat} {response : TokenResponse τ}
    {claims : Dict String Value}
    (h : issueTokens jwt settings userId (userClaims email permissions) now = .ok response)
    (hd : decodeToken jwt settings response.accessToken now' = .ok claims) :
    claims.get? "sub" = some (.str userId.str) ∧
      claims.get? "permissions" = some (.list (permissions.map .str)) := by
  have hk := decodeToken_createAccessToken hjwt (issueTokens_ok h).1 hd
  exact ⟨(hk "sub").trans rfl, (hk "permissions").trans rfl⟩

/-- The claims of a user are none that decoding checks. -/
theorem userClaims_unchecked {email : String} {permissions : List String} :
    ∀ k ∈ checkedClaims, ((userClaims email permissions).mapValues Claim.value).get? k = none := by
  intro k hk
  simp only [checkedClaims, List.mem_cons, List.not_mem_nil, or_false] at hk
  rcases hk with rfl | rfl | rfl | rfl | rfl <;> rfl

theorem userClaims_sub {email : String} {permissions : List String} :
    ((userClaims email permissions).mapValues Claim.value).get? "sub" = none := rfl

theorem issueTokens_decodes (hjwt : RoundTrips jwt settings) {userId : UUID} {email : String}
    {permissions : List String} {now : Nat} {response : TokenResponse τ}
    (h : issueTokens jwt settings userId (userClaims email permissions) now = .ok response) :
    ∃ claims, decodeToken jwt settings response.accessToken now = .ok claims :=
  decodeToken_of_unexpired hjwt userClaims_unchecked
    (fun _ hc => absurd hc (by rw [userClaims_sub]; exact nofun)) (issueTokens_ok h).1 le_rfl
    (by have := settings.one_le_minutes; omega)

theorem login_ok {sha256 : String → String} {users : UserStore} {request : LoginRequest} {now : Nat}
    {response : TokenResponse τ} (h : login jwt settings sha256 users request now = .ok response) :
    ∃ data userId, authenticateUser settings sha256 users request.username request.password =
        some data ∧ UUID.parse data.userId = .ok userId ∧
      issueTokens jwt settings userId (userClaims data.email data.permissions) now =
        .ok response := by
  unfold login at h
  split at h
  · cases h
  · next data hdata =>
    obtain ⟨userId, hp, hi⟩ := bind_ok (mapError_ok h)
    exact ⟨data, userId, hdata, hp, hi⟩

theorem refreshToken_ok {request : RefreshRequest τ} {now : Nat} {response : TokenResponse τ}
    (h : refreshToken jwt settings request now = .ok response) :
    ∃ userId, verifyRefreshToken jwt settings request.refreshToken now = .ok userId ∧
      issueTokens jwt settings userId (userClaims "admin@local" adminPermissions) now =
        .ok response := by
  unfold refreshToken at h
  split at h
  · cases h
  · next userId hv => exact ⟨userId, hv, mapError_ok h⟩

theorem refreshToken_of_verifyRefreshToken {token : τ} {now : Nat} {userId : UUID}
    (hv : verifyRefreshToken jwt settings token now = .ok userId) :
    refreshToken jwt settings ⟨token⟩ now =
      (issueTokens jwt settings userId (userClaims "admin@local" adminPermissions) now).mapError
        .python := by
  simp only [refreshToken, hv]

end

/-- At some moment the token decodes, and names `userId` as its subject. -/
def IssuedFor (dep : Deployment τ) (token : τ) (userId : String) : Prop :=
  ∃ now claims, decodeToken dep.jwt dep.settings token now = .ok claims ∧
    claims.get? "sub" = some (.str userId)

/-- Issued tokens name the user they are issued for, and nobody else. -/
theorem issuedFor_iff (hjwt : RoundTrips dep.jwt dep.settings) {userId : UUID} {id : String} {email : String}
    {permissions : List String} {now : Nat} {response : TokenResponse τ}
    (h : issueTokens dep.jwt dep.settings userId (userClaims email permissions) now = .ok response) :
    IssuedFor dep response.accessToken id ↔ id = userId.str := by
  constructor
  · rintro ⟨now', claims, hd, hsub⟩
    have := hsub.symm.trans (issueTokens_claims hjwt h hd).1
    simpa using this
  · rintro rfl
    obtain ⟨claims, hd⟩ := issueTokens_decodes hjwt h
    exact ⟨now, claims, hd, (issueTokens_claims hjwt h hd).1⟩

/-- A login is one of the administrator of the environment, or of a stored user
under the user's own id. -/
theorem login_cases {s : State} (hs : s.Inv) {request : LoginRequest} {now : Nat}
    {response : TokenResponse τ}
    (h : login dep.jwt dep.settings dep.sha256 s.users request now = .ok response) :
    (isEnvAdmin dep.settings request.username request.password = true ∧
      ∃ userId email, UUID.parse adminUserId = .ok userId ∧ userId.str = adminUserId ∧
        issueTokens dep.jwt dep.settings userId (userClaims email adminPermissions) now =
          .ok response) ∨
    (isEnvAdmin dep.settings request.username request.password = false ∧
      ∃ user userId, findUser dep.sha256 s.users request.username request.password = some user ∧
        userId.str = user.userId ∧ s.users.get? user.userId = some user ∧
        issueTokens dep.jwt dep.settings userId (userClaims user.email user.permissions) now =
          .ok response) := by
  obtain ⟨data, userId, hdata, hp, hi⟩ := login_ok h
  unfold authenticateUser at hdata
  split_ifs at hdata with hadmin
  · obtain rfl := Option.some.inj hdata
    have hstr : userId.str = adminUserId := by
      have hadm : UUID.parse adminUserId = .ok ⟨List.replicate 31 0 ++ [1], rfl⟩ := by decide
      rw [hadm] at hp
      rw [← Except.ok.inj hp]
      decide
    exact Or.inl ⟨hadmin, userId, _, hp, hstr, hi⟩
  · obtain ⟨user, huser, rfl⟩ := Option.map_eq_some_iff.mp hdata
    obtain ⟨⟨id, hget⟩, -⟩ := findUser_some huser
    have hid := hs.userId hget
    obtain ⟨uuid, huuid⟩ := hs.drawn (hs.created hget)
    have hstr : userId.str = user.userId := by
      simp only [hid, huuid, UUID.parse_str, Except.ok.injEq] at hp
      rw [hid, huuid, hp]
    exact Or.inr ⟨by simpa using hadmin, user, userId, huser, hstr, hid ▸ hget, hi⟩

end

/-! ## A small deployment -/

namespace Demo

/-- Default settings and symbolic tokens; the digest is that of the one password used. -/
def deployment : Deployment SignedToken where
  jwt := symbolicJwt
  settings := {}
  sha256 text :=
    if text = "correct horsedev-salt-change-in-production" then
      "9f57f3bc8a01c132fce7b028f335e7b7434238d58ff26be20cbd9976b2458c9f"
    else text

theorem roundTrips : RoundTrips deployment.jwt deployment.settings :=
  fun key _ => symbolicJwt_roundTrip key _

def aliceId : UUID4 where
  digits := [3, 15, 2, 11, 8, 12, 1, 14, 9, 13, 4, 10, 4, 14, 6, 15,
    8, 11, 7, 12, 1, 10, 2, 13, 3, 14, 4, 15, 5, 10, 6, 11]
  length_digits := rfl
  version_eq := by decide

def alice : User where
  userId := aliceId.str
  username := "alice"
  email := "alice@example"
  passwordHash := hashPassword deployment.sha256 "correct horse"
  permissions := ["eval:read", "workflow:read"]
  isActive := true
  tenantId := "default"
  createdAt := "2026-01-01T00:00:00+00:00"
  requiresPasswordChange := false

/-- Alice is created with the default permissions. -/
def createAlice : Event SignedToken where
  call := .createUser
    { username := "alice", email := "alice@example", password := "correct horse" }
    "default" aliceId "2026-01-01T00:00:00+00:00"
  reply := .ok (.user alice.response)

def aliceRequest : CreateUserRequest where
  username := "alice"
  email := "alice@example"
  password := "correct horse"

def aliceState : State := ⟨Dict.empty.set aliceId.str alice, [aliceId.str]⟩

/-- What a login or a refresh at a moment issues for a user. -/
def issuedTokens (userId : UUID) (email : String) (permissions : List String) (now : Nat) :
    TokenResponse SignedToken where
  accessToken := ⟨(basePayload userId now (now + 30 * 60 * 1000000) "access").update
    ((userClaims email permissions).mapValues .value), "dev-change-me-in-production", "HS256"⟩
  refreshToken := ⟨basePayload userId now (now + 7 * 24 * 60 * 60 * 1000000) "refresh",
    "dev-change-me-in-production", "HS256"⟩
  tokenType := "bearer"
  expiresIn := 1800

def aliceTokens (email : String) (permissions : List String) (now : Nat) :
    TokenResponse SignedToken := issuedTokens aliceId.toUUID email permissions now

def adminId : UUID := ⟨List.replicate 31 0 ++ [1], rfl⟩

theorem createAlice_step : Step deployment State.init createAlice aliceState := rfl

theorem issueTokens_demo (userId : UUID) (email : String) (permissions : List String) {now : Nat}
    (h : now + 7 * 24 * 60 * 60 * 1000000 ≤ maxDatetime) :
    issueTokens deployment.jwt deployment.settings userId (userClaims email permissions) now =
      .ok (issuedTokens userId email permissions now) := by
  have haccess : addTimedelta now (30 * 60 * 1000000) = .ok (now + 30 * 60 * 1000000) :=
    addTimedelta_of_le (by omega)
  have hrefresh : addTimedelta now (7 * 24 * 60 * 60 * 1000000) = .ok (now + 7 * 24 * 60 * 60 * 1000000) :=
    addTimedelta_of_le h
  have hminutes : deployment.settings.jwtAccessTokenExpireMinutes = 30 := rfl
  have hdays : deployment.settings.jwtRefreshTokenExpireDays = 7 := rfl
  have hkey : secretKey deployment.settings = .ok "dev-change-me-in-production" := rfl
  unfold issueTokens createAccessToken createAccessTokenOf createRefreshToken
  rw [hminutes, hdays, haccess, hrefresh, hkey]
  rfl

theorem issueTokens_alice (email : String) (permissions : List String) {now : Nat}
    (h : now + 7 * 24 * 60 * 60 * 1000000 ≤ maxDatetime) :
    issueTokens deployment.jwt deployment.settings aliceId.toUUID (userClaims email permissions) now =
      .ok (aliceTokens email permissions now) :=
  issueTokens_demo aliceId.toUUID email permissions h

/-- The administrator of the environment logs in, whoever is stored. -/
theorem login_admin (users : UserStore) {now : Nat}
    (h : now + 7 * 24 * 60 * 60 * 1000000 ≤ maxDatetime) :
    login deployment.jwt deployment.settings deployment.sha256 users ⟨"admin", "admin"⟩ now =
      .ok (issuedTokens adminId "admin@local" adminPermissions now) := by
  have hauth : authenticateUser deployment.settings deployment.sha256 users "admin" "admin" =
      some ⟨adminUserId, "admin@local", adminPermissions⟩ := rfl
  have hparse : UUID.parse adminUserId = .ok adminId := by decide
  unfold login
  rw [hauth]
  have hbind : (UUID.parse adminUserId >>= fun userId => issueTokens deployment.jwt
      deployment.settings userId (userClaims "admin@local" adminPermissions) now) =
        .ok (issuedTokens adminId "admin@local" adminPermissions now) := by
    rw [hparse, ok_bind]
    exact issueTokens_demo adminId "admin@local" adminPermissions h
  exact congrArg (Except.mapError Raised.python) hbind

theorem login_alice {s : State} {user : User} {now : Nat} (h : now + 7 * 24 * 60 * 60 * 1000000 ≤ maxDatetime)
    (hfind : findUser deployment.sha256 s.users "alice" "correct horse" = some user)
    (hid : user.userId = aliceId.str) :
    login deployment.jwt deployment.settings deployment.sha256 s.users ⟨"alice", "correct horse"⟩ now =
      .ok (aliceTokens user.email user.permissions now) := by
  have hadmin : isEnvAdmin deployment.settings "alice" "correct horse" = false := by decide
  have hauth : authenticateUser deployment.settings deployment.sha256 s.users "alice" "correct horse" =
      some ⟨aliceId.str, user.email, user.permissions⟩ := by
    rw [authenticateUser, hadmin, hfind, ← hid]
    rfl
  unfold login
  rw [hauth]
  have hbind : (UUID.parse aliceId.str >>= fun userId => issueTokens deployment.jwt deployment.settings
      userId (userClaims user.email user.permissions) now) =
        .ok (aliceTokens user.email user.permissions now) := by
    rw [UUID.parse_str, ok_bind]
    exact issueTokens_alice user.email user.permissions h
  exact congrArg (Except.mapError Raised.python) hbind

theorem refresh_alice {email : String} {permissions : List String} {issued now : Nat}
    (hissued : issued ≤ now) (hvalid : now < (issued + 7 * 24 * 60 * 60 * 1000000) / 1000000 * 1000000)
    (h : now + 7 * 24 * 60 * 60 * 1000000 ≤ maxDatetime) :
    refreshToken deployment.jwt deployment.settings ⟨(aliceTokens email permissions issued).refreshToken⟩ now =
      .ok (aliceTokens "admin@local" adminPermissions now) := by
  let payload := basePayload aliceId.toUUID issued (issued + 7 * 24 * 60 * 60 * 1000000) "refresh"
  have hdecode : symbolicJwt.decode ⟨payload, "dev-change-me-in-production", "HS256"⟩
      "dev-change-me-in-production" ["HS256"] now = .ok (payload.mapValues Claim.decoded) :=
    symbolicJwt_decode _ _ rfl rfl hissued hvalid
  have hkey : secretKey deployment.settings = .ok "dev-change-me-in-production" := rfl
  have hv : verifyRefreshToken deployment.jwt deployment.settings
      (aliceTokens email permissions issued).refreshToken now = .ok aliceId.toUUID :=
    verifyToken_of_decodeToken ((decodeToken_ok_iff hkey).mpr hdecode) rfl rfl
  rw [refreshToken_of_verifyRefreshToken hv, issueTokens_alice "admin@local" adminPermissions h]
  rfl

end Demo

end RagEval.Api
