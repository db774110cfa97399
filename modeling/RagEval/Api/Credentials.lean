import Mathlib.Logic.Equiv.Basic
import RagEval.Api.UserAdministration

/-!
# The user store as a store of credentials

What an administrator relies on: a username belongs to one record, and a login with it
succeeds for the password that was set last, and for no other.

## Main definitions

- `setBy`, `lastPassword` — the passwords a history sets for a user, and the last of them
- `CredentialChange` — what a call does to the usernames and the password hashes

## Main result

- `credentials_latest` — the store after every run, and what `_authenticate_user` says of it
-/

namespace RagEval.Api
open RagEval.Lib RagEval.Core RagEval.Security

section
variable {τ : Type}

/-- The password that an accepted call sets for the user. -/
def setBy (id : String) (e : Event τ) : Option String :=
  match e.call, e.reply with
  | .createUser request _ uuid _, .ok _ => if uuid.str = id then some request.password else none
  | .updateUser userId request, .ok _ => if userId = id then request.password else none
  | .resetUserPassword userId tempPassword, .ok _ =>
    if userId = id then some tempPassword else none
  | _, _ => none

/-- The password most recently set for the user. -/
def lastPassword (id : String) (events : List (Event τ)) : Option String :=
  (events.filterMap (setBy id)).getLast?

theorem lastPassword_concat (id : String) (events : List (Event τ)) (e : Event τ) :
    lastPassword id (events ++ [e]) = (setBy id e).or (lastPassword id events) := by
  rw [lastPassword, List.filterMap_append]
  cases h : setBy id e with
  | none =>
    rw [List.filterMap_cons_none h, List.filterMap_nil, List.append_nil]
    rfl
  | some p =>
    rw [List.filterMap_cons_some h, List.filterMap_nil, List.getLast?_concat]
    rfl

/-- What a call does to the usernames and the password hashes: nothing, or it writes one record,
under a username that is new or the record's own, or it deletes one. -/
inductive CredentialChange (sha256 : String → String) (s : State) (e : Event τ) : State → Prop
  | kept (hset : ∀ id, setBy id e = none) : CredentialChange sha256 s e s
  | written {created : List String} (id : String) (user : User)
      (hname : (∃ old, s.users.get? id = some old ∧ user.username = old.username) ∨
        ∀ id' old, s.users.get? id' = some old → old.username ≠ user.username)
      (hhash : (∃ p, setBy id e = some p ∧ user.passwordHash = hashPassword sha256 p) ∨
        setBy id e = none ∧ ∃ old, s.users.get? id = some old ∧
          user.passwordHash = old.passwordHash)
      (hother : ∀ id', id ≠ id' → setBy id' e = none) :
      CredentialChange sha256 s e ⟨s.users.set id user, created⟩
  | deleted (id : String) (hset : ∀ id', setBy id' e = none) :
      CredentialChange sha256 s e ⟨s.users.erase id, s.created⟩

variable {dep : Deployment τ}

theorem Step.credentialChange {s s' : State} {e : Event τ} (h : Step dep s e s') :
    CredentialChange dep.sha256 s e s' := by
  cases h.effect with
  | rejected call exc =>
    refine .kept fun id => ?_
    cases call with
    | _ => rfl
  | created request tenantId uuid createdAt user hid hname hhash _ hfresh =>
    exact .written uuid.str user (Or.inr hfresh) (Or.inl ⟨request.password, if_pos rfl, hhash⟩)
      (fun id' hne => if_neg hne)
  | updated userId request user hget =>
    refine .written userId _ (Or.inl ⟨user, hget, rfl⟩) ?_ (fun id' hne => if_neg hne)
    cases hpassword : request.password with
    | none =>
      refine Or.inr ⟨(if_pos rfl).trans hpassword, user, hget, ?_⟩
      rw [UpdateUserRequest.apply, hpassword]
      rfl
    | some p =>
      refine Or.inl ⟨p, (if_pos rfl).trans hpassword, ?_⟩
      rw [UpdateUserRequest.apply, hpassword]
      rfl
  | deleted userId user hget => exact .deleted userId fun id' => rfl
  | reset userId tempPassword user user' body hget _ hname hhash =>
    exact .written userId user' (Or.inl ⟨user, hget, hname⟩)
      (Or.inl ⟨tempPassword, if_pos rfl, hhash⟩) (fun id' hne => if_neg hne)
  | loggedIn request now response h => exact .kept fun id => rfl
  | refreshed request now response h => exact .kept fun id => rfl

/-- No two records share their username, and every record has the hash of the password that the
history set last for it. -/
structure State.Credentials (sha256 : String → String) (events : List (Event τ)) (s : State) :
    Prop where
  distinct : s.users.Separated User.username
  latest : ∀ {id user}, s.users.get? id = some user →
    ∃ p, lastPassword id events = some p ∧ user.passwordHash = hashPassword sha256 p

theorem State.Credentials.init (sha256 : String → String) :
    State.init.Credentials sha256 ([] : List (Event τ)) :=
  ⟨fun _ _ _ _ h => (nomatch h), fun h => (nomatch h)⟩

theorem State.Credentials.change {sha256 : String → String} {events : List (Event τ)}
    {e : Event τ} {s s' : State} (hs : s.Credentials sha256 events)
    (h : CredentialChange sha256 s e s') : s'.Credentials sha256 (events ++ [e]) := by
  -- a record that the call does not write keeps its last password
  have hkeep : ∀ {id user}, setBy id e = none → s.users.get? id = some user →
      ∃ p, lastPassword id (events ++ [e]) = some p ∧ user.passwordHash = hashPassword sha256 p := by
    intro id user hset hget
    obtain ⟨p, hp, hhash⟩ := hs.latest hget
    refine ⟨p, ?_, hhash⟩
    rw [lastPassword_concat, hset, hp]
    rfl
  cases h with
  | kept hset => exact ⟨hs.distinct, fun hget => hkeep (hset _) hget⟩
  | written id user hname hhash hother =>
    constructor
    · apply hs.distinct.set
      intro id' other hne hget hsame
      rcases hname with ⟨own, hown, hownName⟩ | hfresh
      · exact hne (hs.distinct hown hget (hownName.symm.trans hsame.symm))
      · exact hfresh id' other hget hsame
    · intro id' user' hget
      obtain ⟨rfl, rfl⟩ | ⟨hne, hget⟩ := Dict.get?_set_cases hget
      · rcases hhash with ⟨p, hset, hp⟩ | ⟨hset, old, hold, hsame⟩
        · refine ⟨p, ?_, hp⟩
          rw [lastPassword_concat, hset]
          rfl
        · rw [hsame]
          exact hkeep hset hold
      · exact hkeep (hother id' hne) hget
  | deleted id hset =>
    exact ⟨hs.distinct.erase id, fun hget => hkeep (hset _) (Dict.get?_of_get?_erase hget)⟩

theorem State.Credentials.run {events : List (Event τ)} {s : State}
    (h : Run (Step dep) State.init events s) : s.Credentials dep.sha256 events :=
  h.trace_invariant (fun hs hstep => hs.change hstep.credentialChange) (.init dep.sha256)

/-- Passwords with the same hash are the same. -/
theorem hashPassword_inj {sha256 : String → String} (hsha : Function.Injective sha256)
    {p q : String} (h : hashPassword sha256 p = hashPassword sha256 q) : p = q := by
  have hsalted := congrArg String.toList (hsha h)
  rw [String.toList_append, String.toList_append] at hsalted
  exact String.toList_inj.mp (List.append_cancel_right hsalted)

/-- The scan over all users finds the record with the username, or none. -/
theorem State.Credentials.eq_of_findUser {sha256 : String → String} {events : List (Event τ)}
    {s : State} (hs : s.Credentials sha256 events) {id p : String} {user found : User}
    (hget : s.users.get? id = some user)
    (hfound : findUser sha256 s.users user.username p = some found) : found = user := by
  obtain ⟨⟨id', hget'⟩, hname, -⟩ := findUser_some hfound
  obtain rfl := hs.distinct hget' hget hname
  rw [hget] at hget'
  exact (Option.some.inj hget').symm

theorem State.Credentials.findUser_iff {sha256 : String → String} {events : List (Event τ)}
    {s : State} (hs : s.Credentials sha256 events) {id p : String} {user : User}
    (hget : s.users.get? id = some user) :
    findUser sha256 s.users user.username p = some user ↔
      hashPassword sha256 p = user.passwordHash := by
  constructor
  · intro h
    exact of_decide_eq_true (findUser_some h).2.2
  · intro hhash
    have hmatch : (decide (user.username = user.username) &&
        verifyPassword sha256 p user.passwordHash) = true := by
      rw [Bool.and_eq_true]
      exact ⟨decide_eq_true rfl, decide_eq_true hhash⟩
    have hmem : user ∈ s.users.values := (Dict.mem_values_iff _ _).mpr ⟨id, hget⟩
    have hsome : (findUser sha256 s.users user.username p).isSome := by
      rw [findUser, List.find?_isSome]
      exact ⟨user, hmem, hmatch⟩
    obtain ⟨found, hfound⟩ := Option.isSome_iff_exists.mp hsome
    obtain rfl := hs.eq_of_findUser hget hfound
    exact hfound

/-- After every run the usernames are distinct, every record is stored under its own id, and a
login with the username of a stored user, other than the administrator of the environment,
succeeds for the password set last. -/
theorem credentials_latest (dep : Deployment τ) (hsha : Function.Injective dep.sha256)
    {events : List (Event τ)} {s : State} (h : Run (Step dep) State.init events s) :
    (s.users.values.map User.username).Nodup ∧
    (∀ id user, s.users.get? id = some user → user.userId = id) ∧
    ∀ user ∈ s.users.values, ∀ password,
      isEnvAdmin dep.settings user.username password = false →
      (authenticateUser dep.settings dep.sha256 s.users user.username password =
          some ⟨user.userId, user.email, user.permissions⟩ ↔
        lastPassword user.userId events = some password) := by
  have hs := State.Credentials.run h
  have hown := State.Inv.init.run h
  refine ⟨hs.distinct.nodup, fun id user hget => hown.userId hget, ?_⟩
  intro user hmem password hadmin
  obtain ⟨id, hget⟩ := (Dict.mem_values_iff _ _).mp hmem
  obtain ⟨latest, hlatest, hhash⟩ := hs.latest hget
  rw [authenticateUser, if_neg (by rw [hadmin]; exact Bool.false_ne_true), hown.userId hget,
    hlatest]
  constructor
  · intro hfound
    obtain ⟨found, hfound, -⟩ := Option.map_eq_some_iff.mp hfound
    obtain rfl := hs.eq_of_findUser hget hfound
    have hsame := (hs.findUser_iff hget).mp hfound
    rw [hashPassword_inj hsha (hsame.trans hhash)]
  · intro hsame
    rw [Option.some.inj hsame] at hhash
    rw [(hs.findUser_iff hget).mpr hhash.symm, Option.map_some, hown.userId hget]

end

namespace Demo

/-- The digests of the two passwords of the example; a permutation, so without collisions. -/
def digests : Equiv.Perm String :=
  (Equiv.swap "correct horsedev-salt-change-in-production"
    "9f57f3bc8a01c132fce7b028f335e7b7434238d58ff26be20cbd9976b2458c9f").trans
  (Equiv.swap "c2VjcmV0LXRlbXBvdev-salt-change-in-production"
    "7f1e9cf2ba519d7ccab38388cf91df9b00d413da164360d16e3449a84711f68f")

def collisionFree : Deployment SignedToken := { deployment with sha256 := digests }

def createdAlice : User := { alice with passwordHash := hashPassword digests "correct horse" }

def resetAlice : User where
  __ := createdAlice
  passwordHash := hashPassword digests "c2VjcmV0LXRlbXBv"
  requiresPasswordChange := true

def createAliceAgain : Event SignedToken where
  call := createAlice.call
  reply := .error (usernameTaken "alice")

def resetPassword : Event SignedToken where
  call := .resetUserPassword aliceId.str "c2VjcmV0LXRlbXBv"
  reply := .ok (.passwordReset (Dict.ofList
    [("message", "Password has been reset. User must change password on next login."),
     ("temporary_password", "c2VjcmV0LXRlbXBv")]))

def createdState : State := ⟨Dict.empty.set aliceId.str createdAlice, [aliceId.str]⟩

def resetState : State := ⟨createdState.users.set aliceId.str resetAlice, createdState.created⟩

/-- Alice is created, cannot be created again, and has her password reset. -/
theorem run_reset : Run (Step collisionFree) State.init
    [createAlice, createAliceAgain, resetPassword] resetState := by
  have hcreate : Step collisionFree State.init createAlice createdState := rfl
  have hagain : Step collisionFree createdState createAliceAgain createdState := rfl
  have hreset : Step collisionFree createdState resetPassword resetState := rfl
  exact .cons hcreate (.cons hagain (.single hreset))

end Demo

/-- The temporary password works, the first one no longer does. -/
theorem credentials_latest_reset :
    authenticateUser Demo.collisionFree.settings Demo.digests Demo.resetState.users "alice"
        "c2VjcmV0LXRlbXBv" = some ⟨Demo.aliceId.str, "alice@example",
          ["eval:read", "workflow:read"]⟩ ∧
      authenticateUser Demo.collisionFree.settings Demo.digests Demo.resetState.users "alice"
        "correct horse" ≠ some ⟨Demo.aliceId.str, "alice@example",
          ["eval:read", "workflow:read"]⟩ := by
  obtain ⟨-, -, hlatest⟩ := credentials_latest Demo.collisionFree Demo.digests.injective
    Demo.run_reset
  have hmem : Demo.resetAlice ∈ Demo.resetState.users.values := List.mem_cons_self
  constructor
  · exact (hlatest _ hmem "c2VjcmV0LXRlbXBv" (by decide)).mpr (by decide)
  · intro hauth
    have hlast := (hlatest _ hmem "correct horse" (by decide)).mp hauth
    exact absurd hlast (by decide)

end RagEval.Api
