import RagEval.Core.Settings
import RagEval.Lib.Text

/-!
# Environment rules

The model validators of `Settings` in `app/core/config/settings.py`. `LOG_LEVEL` and
`DATABASE_URL` have checks of their own, which concern no function of this module.
-/

namespace RagEval.Core
open RagEval.Lib

inductive Environment where
  | dev | staging | production | test
  deriving Repr, DecidableEq

inductive DatabaseProvider where
  | postgresql | supabase | sqlite
  deriving Repr, DecidableEq

/-- `parse_environment`. No letter beyond ASCII lowers to a letter of an alias, so
`Text.lower` is as good as `str.lower` here, and in the check of the secret as well. -/
def parseEnvironment (value : Option String) : Environment :=
  let raw := Text.lower (Text.strip (if value.getD "" = "" then "dev" else value.getD ""))
  if raw ∈ ["development", "dev"] then .dev
  else if raw ∈ ["prod", "production"] then .production
  else if raw ∈ ["stage", "staging"] then .staging
  else if raw ∈ ["test", "testing"] then .test
  else .dev

/-- The field values `Settings` is built from. -/
structure SettingsFields extends Settings where
  environment : String := "dev"
  debugMode : Bool := false
  secretKey : String := "dev-secret-key-minimum-32-characters-long-only"
  dbProvider : DatabaseProvider := .postgresql
  supabaseDbUrl : Option String := none
  backendCorsOrigins : String := ""
  corsOrigins : List String :=
    ["http://localhost", "http://localhost:3000", "http://localhost:5173", "http://localhost:8080"]
  min_length : 32 ≤ secretKey.length := by decide

/-- The settings under validation, their `ENVIRONMENT` already parsed. -/
structure AppSettings where
  fields : SettingsFields
  environment : Environment

def AppSettings.isProduction (settings : AppSettings) : Bool :=
  decide (settings.environment = .production)

/-- `normalize_cors_origins`. -/
def normalizeCorsOrigins (settings : AppSettings) : AppSettings :=
  if settings.fields.backendCorsOrigins ≠ "" then
    let origins := ((Text.split settings.fields.backendCorsOrigins ',').map Text.strip).filter
      (fun origin => origin ≠ "")
    { settings with fields := { settings.fields with corsOrigins := origins } }
  else settings

/-- The secrets `validate_environment_rules` refuses in production. -/
def isPlaceholder (secret : String) : Bool :=
  Text.startswith secret "dev-" || Text.containsText (Text.lower secret) "change-me"

/-- `validate_environment_rules`. -/
def validateEnvironmentRules (settings : AppSettings) : Except PyError AppSettings :=
  if settings.isProduction ∧ isPlaceholder settings.fields.secretKey then
    .error (.valueError "Production SECRET_KEY must be a real secret")
  else if settings.isProduction ∧ settings.fields.debugMode then
    .error (.valueError "DEBUG_MODE must be false in production")
  else if settings.isProduction ∧ "*" ∈ settings.fields.corsOrigins then
    .error (.valueError "Wildcard CORS is not allowed in production")
  else if settings.fields.dbProvider = .supabase ∧ settings.fields.supabaseDbUrl.getD "" = "" then
    .error (.valueError "SUPABASE_DB_URL is required when DB_PROVIDER=supabase")
  else .ok settings

/-- `Settings(...)`: the environment is parsed, then the model validators run in order. -/
def buildSettings (fields : SettingsFields) : Except PyError AppSettings :=
  validateEnvironmentRules
    (normalizeCorsOrigins ⟨fields, parseEnvironment (some fields.environment)⟩)

@[simp]
theorem normalizeCorsOrigins_toSettings (settings : AppSettings) :
    (normalizeCorsOrigins settings).fields.toSettings = settings.fields.toSettings := by
  rw [normalizeCorsOrigins, apply_ite AppSettings.fields, apply_ite SettingsFields.toSettings, ite_self]

/-- What the validation refuses settings for the lack of. -/
structure AppSettings.Accepted (settings : AppSettings) : Prop where
  secret : settings.isProduction = true → isPlaceholder settings.fields.secretKey = false
  debug : settings.isProduction = true → settings.fields.debugMode = false
  cors : settings.isProduction = true → "*" ∉ settings.fields.corsOrigins
  supabase : settings.fields.dbProvider = .supabase → settings.fields.supabaseDbUrl.getD "" ≠ ""

/-- Validation returns the settings it was given if it accepts them. -/
theorem validateEnvironmentRules_ok_iff {settings settings' : AppSettings} :
    validateEnvironmentRules settings = .ok settings' ↔
      settings' = settings ∧ settings.Accepted := by
  constructor
  · intro h
    unfold validateEnvironmentRules at h
    split_ifs at h with hsecret hdebug hcors hsupabase
    refine ⟨(Except.ok.inj h).symm, ⟨fun hprod => ?_, fun hprod => ?_, fun hprod hstar => ?_, ?_⟩⟩
    · exact Bool.eq_false_iff.mpr fun hkey => hsecret ⟨hprod, hkey⟩
    · exact Bool.eq_false_iff.mpr fun hmode => hdebug ⟨hprod, hmode⟩
    · exact hcors ⟨hprod, hstar⟩
    · exact fun hprovider hurl => hsupabase ⟨hprovider, hurl⟩
  · rintro ⟨rfl, h⟩
    rw [validateEnvironmentRules, if_neg, if_neg, if_neg, if_neg]
    · exact fun hurl => h.supabase hurl.1 hurl.2
    · exact fun hcors => h.cors hcors.1 hcors.2
    · exact fun hdebug => Bool.eq_false_iff.mp (h.debug hdebug.1) hdebug.2
    · exact fun hsecret => Bool.eq_false_iff.mp (h.secret hsecret.1) hsecret.2

theorem validateEnvironmentRules_ok {settings settings' : AppSettings}
    (h : validateEnvironmentRules settings = .ok settings') : settings' = settings :=
  (validateEnvironmentRules_ok_iff.mp h).1

theorem buildSettings_accepted {fields : SettingsFields} {settings : AppSettings}
    (h : buildSettings fields = .ok settings) : settings.Accepted := by
  obtain ⟨rfl, haccepted⟩ := validateEnvironmentRules_ok_iff.mp h
  exact haccepted

/-- In production the `SECRET_KEY` of accepted settings is no placeholder. -/
theorem isPlaceholder_of_isProduction {fields : SettingsFields} {settings : AppSettings}
    (h : buildSettings fields = .ok settings) (hprod : settings.isProduction = true) :
    isPlaceholder settings.fields.secretKey = false :=
  (buildSettings_accepted h).secret hprod

/-- No model validator touches the settings the token functions read. -/
theorem buildSettings_ok {fields : SettingsFields} {settings : AppSettings}
    (h : buildSettings fields = .ok settings) :
    settings.fields.toSettings = fields.toSettings := by
  rw [validateEnvironmentRules_ok h, normalizeCorsOrigins_toSettings]

end RagEval.Core
