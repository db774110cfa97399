import RagEval.Core.EnvironmentRules
import RagEval.Lib.Operators

/-!
# The two resolvers of the environment

`app/core/config/env.py`, and `get_settings` of `app/core/config/settings.py`. Each reads the
variable `ENVIRONMENT` with aliases of its own; the settings trim it as well.

## Main definitions

- `Env.getEnvironment`, `Env.isProduction`, `getSettings` — as in the source
- `NamesProductionPlainly` — how production has to be written for both to see it

## Main result

- `isProduction_agree_iff` — when the two agree on production
-/

namespace RagEval.Core
open RagEval.Lib

namespace Env

/-- `Environment` of `env.py`. -/
inductive Environment where
  | dev | test | staging | preprod | prod
  deriving Repr, DecidableEq

def Environment.value : Environment → String
  | dev => "dev"
  | test => "test"
  | staging => "staging"
  | preprod => "preprod"
  | prod => "prod"

/-- `Environment(value)`, or `none` where that raises `ValueError`. -/
def Environment.ofValue (value : String) : Option Environment :=
  [dev, test, staging, preprod, prod].find? fun e => e.value = value

/-- `get_environment`; `environ` is the variable `ENVIRONMENT`. -/
def getEnvironment (environ : Option String) : Environment :=
  let env := Text.lower (environ.getD "dev")
  match Environment.ofValue env with
  | some e => e
  | none => .dev

def isProduction (environ : Option String) : Bool :=
  decide (getEnvironment environ = .prod)

end Env

/-- The values of the `Environment` of `settings.py`. -/
def Environment.value : Environment → String
  | dev => "dev"
  | staging => "staging"
  | production => "production"
  | test => "test"

/-- `get_settings`, over the variables `APP_ENV` and `ENVIRONMENT`; the other fields are from the
environment and from a file that it may name. -/
def getSettings (appEnv environ : Option String) (fields : SettingsFields) :
    Except PyError AppSettings :=
  let environment := parseEnvironment (if appEnv.getD "" ≠ "" then appEnv else environ)
  buildSettings { fields with environment := environment.value }

/-! ## What each resolver reads -/

theorem parseEnvironment_value (e : Environment) : parseEnvironment (some e.value) = e := by
  cases e <;> decide

theorem normalizeCorsOrigins_environment (settings : AppSettings) :
    (normalizeCorsOrigins settings).environment = settings.environment := by
  rw [normalizeCorsOrigins, apply_ite AppSettings.environment, ite_self]

theorem buildSettings_environment {fields : SettingsFields} {settings : AppSettings}
    (h : buildSettings fields = .ok settings) :
    settings.environment = parseEnvironment (some fields.environment) := by
  rw [validateEnvironmentRules_ok h, normalizeCorsOrigins_environment]

theorem getSettings_environment {environ : Option String} {fields : SettingsFields}
    {settings : AppSettings} (h : getSettings none environ fields = .ok settings) :
    settings.environment = parseEnvironment environ := by
  simp only [getSettings, Option.getD_none, ne_eq, not_true_eq_false, if_false] at h
  generalize parseEnvironment environ = environment at h ⊢
  exact (buildSettings_environment h).trans (parseEnvironment_value environment)

/-- `env.py` has one spelling of production. -/
theorem Env.getEnvironment_prod_iff (environ : Option String) :
    getEnvironment environ = .prod ↔ ∃ s ∈ environ, Text.lower s = "prod" := by
  have hofValue : ∀ env, (match Environment.ofValue env with | some e => e | none => .dev) =
      Environment.prod ↔ env = "prod" := by
    intro env
    constructor
    · intro h
      cases hfound : Environment.ofValue env with
      | none =>
        rw [hfound] at h
        cases h
      | some e =>
        rw [hfound] at h
        obtain rfl : e = .prod := h
        have hvalue := List.find?_some hfound
        exact (of_decide_eq_true hvalue).symm
    · rintro rfl
      decide
  cases environ with
  | none => exact iff_of_false (by decide) nofun
  | some s =>
    rw [getEnvironment, Option.getD_some, hofValue]
    simp

/-- The settings have two, and trim the variable before they compare. -/
theorem parseEnvironment_production_iff (environ : Option String) :
    parseEnvironment environ = .production ↔
      ∃ s ∈ environ, Text.lower (Text.strip s) = "prod" ∨
        Text.lower (Text.strip s) = "production" := by
  have hraw : ∀ raw : String, (if raw ∈ ["development", "dev"] then Environment.dev
      else if raw ∈ ["prod", "production"] then .production
      else if raw ∈ ["stage", "staging"] then .staging
      else if raw ∈ ["test", "testing"] then .test
      else .dev) = .production ↔ raw = "prod" ∨ raw = "production" := by
    intro raw
    constructor
    · intro h
      split_ifs at h with hdev hprod hstage htest
      · simpa using hprod
    · rintro (rfl | rfl) <;> decide
  have hread : ∀ s : String, (∃ s' ∈ some s, Text.lower (Text.strip s') = "prod" ∨
      Text.lower (Text.strip s') = "production") ↔
        Text.lower (Text.strip s) = "prod" ∨ Text.lower (Text.strip s) = "production" := by
    intro s
    simp
  rw [parseEnvironment, hraw]
  cases environ with
  | none => exact iff_of_false (by decide) nofun
  | some s =>
    rw [hread, Option.getD_some]
    by_cases hempty : s = ""
    · subst hempty
      decide
    · rw [if_neg hempty]

/-! ## Agreement -/

theorem toLower_of_isSpace {c : Char} (h : Text.isSpace c = true) : c.toLower = c := by
  simp only [Text.isSpace, decide_eq_true_eq] at h
  have hletter : ¬(c.val ≥ 65 ∧ c.val ≤ 90) := by
    rintro ⟨hfirst, hlast⟩
    rw [ge_iff_le, UInt32.le_iff_toNat_le] at hfirst
    rw [UInt32.le_iff_toNat_le] at hlast
    change 65 ≤ c.toNat at hfirst
    change c.toNat ≤ 90 at hlast
    omega
  exact dif_neg hletter

/-- What lowers to a word has nothing to strip. -/
theorem strip_of_lower {s word : String} (hword : ∀ c ∈ word.toList, Text.isSpace c = false)
    (h : Text.lower s = word) : Text.strip s = s := by
  apply String.toList_inj.mp
  rw [Text.toList_strip]
  refine Split.trim_eq_self fun c hc => ?_
  rw [Bool.eq_false_iff]
  intro hspace
  have hmem : c.toLower ∈ word.toList := by
    rw [← h, Text.lower, String.toList_ofList]
    exact List.mem_map_of_mem hc
  rw [toLower_of_isSpace hspace] at hmem
  rw [hword c hmem] at hspace
  exact Bool.false_ne_true hspace

/-- The variable does not name production by the longer word, and not by the shorter one with
white space around it. -/
def NamesProductionPlainly (environ : Option String) : Prop :=
  ∀ s ∈ environ, Text.lower (Text.strip s) ≠ "production" ∧
    (Text.lower (Text.strip s) = "prod" → Text.strip s = s)

/-- The two resolvers agree on production exactly if the variable names it plainly, if at all. -/
theorem isProduction_agree_iff (environ : Option String) (fields : SettingsFields)
    (settings : AppSettings) (h : getSettings none environ fields = .ok settings) :
    (Env.isProduction environ = true ↔ settings.isProduction = true) ↔
      NamesProductionPlainly environ := by
  rw [Env.isProduction, decide_eq_true_eq, Env.getEnvironment_prod_iff, AppSettings.isProduction,
    decide_eq_true_eq, getSettings_environment h, parseEnvironment_production_iff]
  cases environ with
  | none => exact iff_of_true (iff_of_false nofun nofun) nofun
  | some s =>
    have hplain : Text.lower s = "prod" ↔
        Text.lower (Text.strip s) = "prod" ∧ Text.strip s = s := by
      constructor
      · intro hlower
        have hword : "prod".toList.all (fun c => !Text.isSpace c) = true := by decide
        have hstrip := strip_of_lower
          (fun c hc => (Bool.not_eq_true' _).mp (List.all_eq_true.mp hword c hc)) hlower
        exact ⟨hstrip.symm ▸ hlower, hstrip⟩
      · rintro ⟨hlower, hstrip⟩
        rwa [hstrip] at hlower
    simp only [Option.mem_some_iff, exists_eq_left', NamesProductionPlainly, forall_eq', hplain]
    constructor
    · intro hagree
      refine ⟨fun hlonger => ?_, fun hprod => (hagree.mpr (.inl hprod)).2⟩
      -- the longer word is production for the settings alone
      have hshorter := (hagree.mpr (.inr hlonger)).1
      rw [hlonger] at hshorter
      exact absurd hshorter (by decide)
    · rintro ⟨hlonger, hprod⟩
      rw [or_iff_left hlonger]
      exact ⟨fun h => h.1, fun h => ⟨h, hprod h⟩⟩

/-- Settings with a secret that production accepts and token lifetimes of their own. -/
def deployed : SettingsFields :=
  { secretKey := "2c5ea4c04f1d4f1e8c8f6d0a7b93e7d5",
    jwtAccessTokenExpireMinutes := 20, jwtRefreshTokenExpireDays := 10 }

theorem isProduction_agree_upper :
    Env.isProduction (some "PROD") = true ∧
      ∃ settings, getSettings none (some "PROD") deployed = .ok settings ∧
        settings.isProduction = true := by
  refine ⟨by decide, _, rfl, ?_⟩
  refine (isProduction_agree_iff (some "PROD") deployed _ rfl).mpr ?_ |>.mp (by decide)
  intro s hs
  obtain rfl := Option.some.inj hs
  decide

/-- `ENVIRONMENT=production` is production to the settings alone. -/
theorem isProduction_disagree :
    Env.isProduction (some "production") = false ∧
      ∃ settings, getSettings none (some "production") deployed = .ok settings ∧
        settings.isProduction = true :=
  ⟨by decide, _, rfl, by decide⟩

end RagEval.Core
