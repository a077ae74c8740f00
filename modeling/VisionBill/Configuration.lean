import VisionBill.Lib.Transition
import VisionBill.Text
import VisionBill.Decimal

/-!
# Settings that administrators change

`PUT /system/settings` writes five settings into the YAML file, from which
they are read again when the program starts – unless the environment or a
dotenv file has a value for them, which takes precedence. So the request
is refused that would change a setting which the environment controls.

What the environment controls is found out in two ways. At the start it is
for `pydantic-settings` to say, which knows names in any letter case and
values for whole sections, and `python-dotenv` reads the files. The
request looks for the five names as they are written in
`EDITABLE_ENV_KEYS`, and scans the files by itself. A change is kept
exactly if every setting that the first finds and the second does not has
been given the value that it has there (`restart_keepsUpdate`).

## Two notions of controlled

They are modelled apart. `overriding` is what the library finds for a
setting; the library is a parameter, of which it is documented that
environment variables precede dotenv files. `Locked` is what the request
finds: it looks for a name, in the environment as it is and in the files
line by line. What is locked and what is overriding can differ in both
directions. A setting that is locked and not overriding merely cannot be
changed. One that is overriding and not locked can be changed, and the
change is gone with the next start.

## What a request relies on

A request that leaves a locked setting as it is, is not refused. It writes
the value that the program has, so it has to be shown that this is the
value which the environment will have for it again
(`Application.Follows`). This holds at the start and is kept by every
request, which is why the theorem is about programs that were started, and
not about any combination of settings and file.
-/

namespace VisionBill

/-! ## Settings

The five settings that the page may change. Each has a name in the file
and one in the environment, and the code keeps them in tables, so that a
loop over the names does for all of them. -/

/-- `LLMProviderEnum`. -/
inductive LLMProvider
  | ollama | anthropic | openai
  deriving DecidableEq

/-- The settings of `EDITABLE_ENV_KEYS`, in its order. These are what the
settings page may change; all others need the configuration to be edited
by hand. -/
inductive EditableField
  | llmProvider | llmHost | llmModelName | llmTemperature | authAllowRegistration
  deriving DecidableEq

namespace EditableField

/-- All of them. -/
def all : List EditableField :=
  [llmProvider, llmHost, llmModelName, llmTemperature, authAllowRegistration]

/-- The name of a setting. -/
def name : EditableField → String
  | llmProvider => "llm.provider"
  | llmHost => "llm.host"
  | llmModelName => "llm.model_name"
  | llmTemperature => "llm.temperature"
  | authAllowRegistration => "auth.allow_registration"

/-- The name of its environment variable. A setting for which it is given
is locked, since the environment comes before the file. -/
def environmentName : EditableField → String
  | llmProvider => "LLM__PROVIDER"
  | llmHost => "LLM__HOST"
  | llmModelName => "LLM__MODEL_NAME"
  | llmTemperature => "LLM__TEMPERATURE"
  | authAllowRegistration => "AUTH__ALLOW_REGISTRATION"

theorem mem_all (field : EditableField) : field ∈ all := by
  cases field <;> decide

end EditableField

/-- The value of a setting. Settings are of different types, and a file or
an update speaks of all of them at once. -/
inductive SettingValue
  | provider (p : LLMProvider)
  | text (s : String)
  | number (x : PyFloat)
  | flag (b : Bool)
  deriving DecidableEq

/-- The editable settings. The page shows all of them and sends all of
them back, also those that were not touched. -/
structure EditableSettings where
  provider : LLMProvider
  host : String
  modelName : String
  temperature : PyFloat
  allowRegistration : Bool
  deriving DecidableEq

/-- `SettingsUpdate`. The bounds are those of its fields, so an update
that reaches the endpoint has a host, a model and a temperature in
range. -/
structure SettingsUpdate extends EditableSettings where
  host_ne : host ≠ ""
  modelName_ne : modelName ≠ ""
  temperature_range : ∃ x h, temperature = .finite x h ∧ 0 ≤ x ∧ x ≤ 2

/-- The value of one of them. -/
def EditableSettings.get (s : EditableSettings) : EditableField → SettingValue
  | .llmProvider => .provider s.provider
  | .llmHost => .text s.host
  | .llmModelName => .text s.modelName
  | .llmTemperature => .number s.temperature
  | .authAllowRegistration => .flag s.allowRegistration

/-- The settings with given values, if each is there and of its type. A
start with a value of another type does not come about. -/
def EditableSettings.ofValues (v : EditableField → Option SettingValue) : Option EditableSettings :=
  match v .llmProvider, v .llmHost, v .llmModelName, v .llmTemperature,
    v .authAllowRegistration with
  | some (.provider p), some (.text host), some (.text modelName), some (.number t),
    some (.flag b) => some ⟨p, host, modelName, t, b⟩
  | _, _, _, _, _ => none

theorem EditableSettings.ofValues_eq_some_iff {v : EditableField → Option SettingValue}
    {s : EditableSettings} : ofValues v = some s ↔ ∀ field, v field = some (s.get field) := by
  constructor
  · intro h
    unfold ofValues at h
    split at h
    · next h₁ h₂ h₃ h₄ h₅ =>
      obtain rfl := Option.some.inj h
      rintro (_ | _ | _ | _ | _)
      · exact h₁
      · exact h₂
      · exact h₃
      · exact h₄
      · exact h₅
    · exact absurd h (by simp)
  · intro h
    unfold ofValues
    rw [h .llmProvider, h .llmHost, h .llmModelName, h .llmTemperature, h .authAllowRegistration]
    rfl

/-! ## The start

The environment comes before the file, and the file before the defaults.
How a text is read as a value is up to the library of settings, which is a
parameter. -/

/-- What the program leaves to its libraries: which raw values the
environment and the files have for a setting, how a raw value is
validated, and how a value is written to YAML and read again. -/
structure SettingsLibrary (Raw : Type) where
  /-- What the environment has for a setting. -/
  environment : List (String × String) → EditableField → Option Raw
  /-- What `.env` and `.env.local` have for it, as far as they are
  there. -/
  dotenv : List String → EditableField → Option Raw
  /-- The validation of a value. -/
  validate : EditableField → Raw → Option SettingValue
  /-- A value as the YAML file holds it. -/
  dump : SettingValue → Raw
  /-- What is written is read again. -/
  validate_dump : ∀ (s : EditableSettings) field,
    validate field (dump (s.get field)) = some (s.get field)

/-- The environment and the dotenv files. They stay as they are from one
start to the next. -/
structure Surroundings where
  environ : List (String × String)
  dotenv : Option String
  dotenvLocal : Option String

/-- The YAML file, by the settings that it has. -/
abbrev YamlConfig (Raw : Type) := EditableField → Option Raw

/-- The default of a setting, if it has one. -/
def EditableField.default : EditableField → Option SettingValue
  | .llmProvider => some (.provider .ollama)
  | .authAllowRegistration => some (.flag true)
  | _ => none

section Start

variable {Raw : Type} (L : SettingsLibrary Raw) (around : Surroundings)

/-- What takes precedence over the YAML file. -/
def overriding (field : EditableField) : Option Raw :=
  (L.environment around.environ field).or
    (L.dotenv (around.dotenv.toList ++ around.dotenvLocal.toList) field)

/-- The value of a setting: `settings_customise_sources`, and validation.
The first source that has a value counts, whether it is valid or not. -/
def settingValue (yaml : YamlConfig Raw) (field : EditableField) : Option SettingValue :=
  match (overriding L around field).or (yaml field) with
  | some raw => L.validate field raw
  | none => field.default

/-- `Settings()`, as far as it can be edited. There are no settings at all
if one of the values does not validate. -/
def buildSettings (yaml : YamlConfig Raw) : Option EditableSettings :=
  EditableSettings.ofValues (settingValue L around yaml)

/-- `write_config_file`. -/
def writeConfig (s : EditableSettings) : YamlConfig Raw := fun field => some (L.dump (s.get field))

end Start

/-! ## The scan

The page asks where each setting comes from, and does so with a scan of
its own, of the environment and of the dotenv files. It compares names
letter by letter, where the library may not. -/

/-- Where `str.splitlines()` ends a line. -/
def isLineBreak (c : Char) : Bool :=
  let n := c.toNat
  (0x0A ≤ n && n ≤ 0x0D) || (0x1C ≤ n && n ≤ 0x1E) || n == 0x85 || n == 0x2028 || n == 0x2029

/-- `str.splitlines()`; a line may appear to end twice, which leaves a
blank one. -/
def splitlines (s : String) : List String := (s.toList.splitOnP isLineBreak).map String.ofList

/-- The names that `_dotenv_names` finds, of those that it looks for. It
reads a line at a time and knows nothing of quotes that go on over several
lines. -/
def dotenvNames (text : Option String) : List String :=
  (text.elim [] splitlines).filterMap fun line =>
    let stripped := strip line
    if stripped = "" ∨ stripped.toList.head? = some '#' then none
    else
      let name := strip (String.ofList ((removePrefix "export " stripped).toList.takeWhile (· ≠ '=')))
      if name ∈ EditableField.all.map EditableField.environmentName then some name else none

/-- `environment_names`. -/
def environmentNames (around : Surroundings) : List String :=
  around.environ.map Prod.fst ++ dotenvNames around.dotenv ++ dotenvNames around.dotenvLocal

/-- Whether the request takes a setting to be controlled by the
environment. It is about names, in exactly one spelling. -/
def Locked (around : Surroundings) (field : EditableField) : Prop :=
  field.environmentName ∈ environmentNames around

instance (around : Surroundings) : DecidablePred (Locked around) := fun _ =>
  inferInstanceAs (Decidable (_ ∈ _))

/-- Where a setting comes from, as it is shown. The page uses it to tell
which settings are locked. -/
inductive SettingSource
  | environment | config | default
  deriving DecidableEq

/-! ## The request

A change to a setting that the scan reports as locked is refused. All
others are written to the file and applied, as far as that is safe without
a restart. -/

/-- An `HTTPException`. -/
structure HttpException where
  statusCode : ℕ
  detail : String

/-- `SettingsView`. It tells of each setting where it comes from, and
whether a restart is needed for all of them to be in force. -/
structure SettingsView where
  settings : EditableSettings
  sources : List (EditableField × SettingSource)
  restartRequired : Bool

/-- The program: its settings, the YAML file if there is one, and the
provider and host with which it was started. The settings in memory and
those in the file are two things, and a request changes both. -/
structure Application (Raw : Type) where
  settings : EditableSettings
  yaml : Option (YamlConfig Raw)
  startup : Option (LLMProvider × String)

section Request

variable {Raw : Type} (L : SettingsLibrary Raw) (around : Surroundings)

/-- What the YAML file holds; nothing, if it is not there. -/
def Application.config (app : Application Raw) : YamlConfig Raw := app.yaml.getD fun _ => none

/-- `editable_setting_sources`. -/
def editableSettingSources (yaml : YamlConfig Raw) (field : EditableField) : SettingSource :=
  if Locked around field then .environment
  else if (yaml field).isSome then .config
  else .default

/-- `_settings_view`. A restart is asked for if the provider or its host
differs from what the program started with. -/
def Application.view (app : Application Raw) : SettingsView where
  settings := app.settings
  sources := EditableField.all.map fun field =>
    (field, editableSettingSources around app.config field)
  restartRequired := match app.startup with
    | some identity => decide (identity ≠ (app.settings.provider, app.settings.host))
    | none => false

/-- `locked_changes`. -/
def lockedChanges (app : Application Raw) (update : SettingsUpdate) : List EditableField :=
  EditableField.all.filter fun field =>
    editableSettingSources around app.config field = .environment
      ∧ update.get field ≠ app.settings.get field

/-- `update_settings`; `written` says whether the file can be written. A
request that would change a locked setting is refused before anything is
written. -/
def updateSettings (app : Application Raw) (update : SettingsUpdate) (written : Bool) :
    Except HttpException (Application Raw × SettingsView) :=
  let changes := lockedChanges around app update
  if changes ≠ [] then
    .error ⟨409, "These settings are controlled by environment variables: "
      ++ ", ".intercalate (changes.map EditableField.name)⟩
  else if written then
    let app' : Application Raw := { app with
      settings := update.toEditableSettings
      yaml := some (writeConfig L update.toEditableSettings) }
    .ok (app', app'.view around)
  else .error ⟨503, "Could not write application config"⟩

/-- The program as it starts: `Settings()`, `initialize_config_file`, and
`mark_startup_settings` once it serves requests. -/
def start (yaml : Option (YamlConfig Raw)) (written : Bool) : Option (Application Raw) :=
  (buildSettings L around (yaml.getD fun _ => none)).map fun settings =>
    { settings := settings
      yaml := yaml.orElse fun _ => if written then some (writeConfig L settings) else none
      startup := some (settings.provider, settings.host) }

/-- A request; one that is refused changes nothing. -/
def Application.step (app : Application Raw) : SettingsUpdate × Bool → Option (Application Raw)
  | (update, written) => some (match updateSettings L around app update written with
    | .ok (app', _) => app'
    | .error _ => app)

end Request

/-! ## The restart

An update is kept by the next start unless the start finds another value
for a setting which the scan has missed. So the condition compares the
scan and the library, setting by setting. -/

section Restart

variable {Raw : Type} {L : SettingsLibrary Raw} {around : Surroundings}

/-- What an accepted update stores. It has not touched what is controlled
by the environment, and everything else is written to the file, and in
use. -/
theorem updateSettings_spec {app app' : Application Raw} {update : SettingsUpdate} {written : Bool}
    {view : SettingsView} (h : updateSettings L around app update written = .ok (app', view)) :
    (∀ field, Locked around field → update.get field = app.settings.get field)
      ∧ app'.settings = update.toEditableSettings
      ∧ app'.yaml = some (writeConfig L update.toEditableSettings) := by
  unfold updateSettings at h
  dsimp only at h
  split at h
  · exact absurd h (by simp)
  · next hchanges =>
    split at h
    · obtain ⟨rfl, -⟩ := Prod.mk.inj (Except.ok.inj h)
      refine ⟨fun field hlocked => ?_, rfl, rfl⟩
      by_contra hne
      refine hchanges (List.ne_nil_of_mem (a := field) (List.mem_filter.mpr
        ⟨field.mem_all, decide_eq_true ⟨?_, hne⟩⟩))
      unfold editableSettingSources
      exact if_pos hlocked
    · exact absurd h (by simp)

/-- What the YAML file then holds. -/
theorem config_updateSettings {app app' : Application Raw} {update : SettingsUpdate}
    {written : Bool} {view : SettingsView}
    (h : updateSettings L around app update written = .ok (app', view)) :
    app'.config = writeConfig L update.toEditableSettings := by
  unfold Application.config
  rw [(updateSettings_spec h).2.2]
  rfl

/-- **The invariant**: a setting that a request takes to be controlled by
the environment has the value that the environment has for it, if it has
one. -/
def Application.Follows (L : SettingsLibrary Raw) (around : Surroundings) (app : Application Raw) :
    Prop :=
  ∀ field, Locked around field → ∀ raw ∈ overriding L around field,
    L.validate field raw = some (app.settings.get field)

/-- It holds when the program starts. -/
theorem follows_start {yaml : Option (YamlConfig Raw)} {written : Bool} {app : Application Raw}
    (h : start L around yaml written = some app) : app.Follows L around := by
  obtain ⟨settings, hsettings, rfl⟩ := Option.map_eq_some_iff.mp h
  intro field _ raw hraw
  have hvalue := EditableSettings.ofValues_eq_some_iff.mp hsettings field
  unfold settingValue at hvalue
  rw [Option.mem_def.mp hraw, Option.some_or] at hvalue
  exact hvalue

/-- And no request changes that. One that would is refused, and one that
is refused changes nothing. -/
theorem Application.Follows.step {app app' : Application Raw} (h : app.Follows L around)
    {request : SettingsUpdate × Bool} (hstep : app.step L around request = some app') :
    app'.Follows L around := by
  obtain ⟨update, written⟩ := request
  obtain rfl := Option.some.inj hstep
  split
  · next app' view hupdate =>
    obtain ⟨hlocked, hsettings, -⟩ := updateSettings_spec hupdate
    intro field hfield raw hraw
    rw [hsettings]
    exact (h field hfield raw hraw).trans (congrArg some (hlocked field hfield).symm)
  · exact h

/-- What the environment has for a setting that the request does not take
to be controlled by it is the value that the setting is given. It is a
condition on the environment and on the update, setting by setting. Where
the scan and the library agree there is nothing to ask. -/
def MissedAgree (L : SettingsLibrary Raw) (around : Surroundings) (update : SettingsUpdate) : Prop :=
  ∀ field, ¬ Locked around field → ∀ raw ∈ overriding L around field,
    L.validate field raw = some (update.get field)

/-- **An accepted change survives a restart** exactly if the environment
agrees with it wherever the request has missed that it takes precedence.
Other requests may have come before. -/
theorem restart_keepsUpdate {yaml : Option (YamlConfig Raw)} {written written' : Bool}
    {app₀ app app' : Application Raw} {update : SettingsUpdate} {view : SettingsView}
    (hstart : start L around yaml written = some app₀)
    (run : Transition.Reachable (Application.step L around) app₀ app)
    (hupdate : updateSettings L around app update written' = .ok (app', view)) :
    buildSettings L around app'.config = some update.toEditableSettings
      ↔ MissedAgree L around update := by
  have hfollows : app.Follows L around :=
    run.invariant (follows_start hstart) fun _ _ _ h _ hstep => h.step hstep
  obtain ⟨hlocked, -, -⟩ := updateSettings_spec hupdate
  unfold buildSettings
  rw [EditableSettings.ofValues_eq_some_iff, config_updateSettings hupdate]
  constructor
  · intro h field _ raw hraw
    have hvalue := h field
    unfold settingValue at hvalue
    rw [Option.mem_def.mp hraw, Option.some_or] at hvalue
    exact hvalue
  · intro h field
    unfold settingValue
    cases hraw : overriding L around field with
    | none => exact L.validate_dump update.toEditableSettings field
    | some raw =>
      rw [Option.some_or]
      by_cases hfield : Locked around field
      · exact (hfollows field hfield raw hraw).trans (congrArg some (hlocked field hfield).symm)
      · exact h field hfield raw hraw

end Restart

/-! ## A host in the environment -/

section HostInEnvironment

/-- A value of the YAML file, or a text of the environment. -/
abbrev RawSetting := String ⊕ SettingValue

/-- The type of a setting. A value of another type in the file is not
converted. -/
def EditableField.Admits : EditableField → SettingValue → Bool
  | .llmProvider, .provider _ => true
  | .llmHost, .text _ => true
  | .llmModelName, .text _ => true
  | .llmTemperature, .number _ => true
  | .authAllowRegistration, .flag _ => true
  | _, _ => false

/-- The validation of texts, with whole numbers only, and of values. The
environment has texts, and the file has values. -/
def validateRaw : EditableField → RawSetting → Option SettingValue
  | field, .inr v => if field.Admits v then some v else none
  | .llmProvider, .inl "ollama" => some (.provider .ollama)
  | .llmProvider, .inl "anthropic" => some (.provider .anthropic)
  | .llmProvider, .inl "openai" => some (.provider .openai)
  | .llmProvider, .inl _ => none
  | .llmHost, .inl s => some (.text s)
  | .llmModelName, .inl s => some (.text s)
  | .llmTemperature, .inl s => s.toInt?.map fun n => .number (.ofInt n)
  | .authAllowRegistration, .inl "true" => some (.flag true)
  | .authAllowRegistration, .inl "false" => some (.flag false)
  | .authAllowRegistration, .inl _ => none

/-- `str.lower()` of a name in ASCII. -/
def lowerName (s : String) : List Char := s.toList.map Char.toLower

/-- Names in any letter case, the last of which counts, and no dotenv
files. -/
def caseInsensitive : SettingsLibrary RawSetting where
  environment environ field :=
    (environ.reverse.find? fun v => lowerName v.1 = lowerName field.environmentName).map
      fun v => .inl v.2
  dotenv _ _ := none
  validate := validateRaw
  dump := .inr
  validate_dump := fun _ field => by cases field <;> rfl

/-- A host that is set under a name. -/
def hostAs (name : String) : Surroundings where
  environ := [(name, "http://a")]
  dotenv := none
  dotenvLocal := none

/-- The settings with a host. -/
def withHost (host : String) (host_ne : host ≠ "") : SettingsUpdate where
  provider := .ollama
  host := host
  modelName := "llava"
  temperature := .ofInt 0
  allowRegistration := false
  host_ne := host_ne
  modelName_ne := by decide
  temperature_range := ⟨0, exists_mul_floatUnit 0, rfl, by decide, by decide⟩

/-- The host of another machine. -/
def withHostB : SettingsUpdate := withHost "http://b" (by decide)

/-- The host that the environment names. -/
def withHostA : SettingsUpdate := withHost "http://a" (by decide)

/-- The YAML file before. -/
def oldConfig : YamlConfig RawSetting :=
  writeConfig caseInsensitive (withHost "http://old" (by decide)).toEditableSettings

/-- A request that is accepted after the start. -/
theorem exists_accepted (around : Surroundings) (update : SettingsUpdate)
    (h : (start caseInsensitive around (some oldConfig) true).any (fun app =>
      (updateSettings caseInsensitive around app update true).isOk) = true) :
    ∃ app₀ app' view, start caseInsensitive around (some oldConfig) true = some app₀
      ∧ updateSettings caseInsensitive around app₀ update true = .ok (app', view) := by
  obtain ⟨app₀, hstart, hok⟩ := (Option.any_eq_true _ _).mp h
  cases hupdate : updateSettings caseInsensitive around app₀ update true with
  | error e =>
    rw [hupdate] at hok
    exact absurd hok (by simp [Except.isOk, Except.toBool])
  | ok out => exact ⟨app₀, out.1, out.2, hstart, hupdate⟩

/-- The environment controls the host only. -/
theorem overriding_capitalHost {field : EditableField} (h : field ≠ .llmHost) :
    overriding caseInsensitive (hostAs "LLM__HOST") field = none := by
  cases field with
  | llmHost => exact absurd rfl h
  | llmProvider => decide +kernel
  | llmModelName => decide +kernel
  | llmTemperature => decide +kernel
  | authAllowRegistration => decide +kernel

/-- A host that is controlled by the environment stays, and other changes
are kept. Here the name is in capitals, and the check of the source finds
it. -/
theorem capitalHost_survives :
    ∃ app' : Application RawSetting,
      app'.settings = withHostA.toEditableSettings
        ∧ buildSettings caseInsensitive (hostAs "LLM__HOST") app'.config
          = some withHostA.toEditableSettings := by
  obtain ⟨app₀, app', view, hstart, hupdate⟩ :=
    exists_accepted (hostAs "LLM__HOST") withHostA (by decide +kernel)
  refine ⟨app', (updateSettings_spec hupdate).2.1,
    (restart_keepsUpdate hstart .start hupdate).mpr ?_⟩
  intro field hfield raw hraw
  cases h : decide (field = .llmHost) with
  | true =>
    rw [of_decide_eq_true h] at hfield
    exact absurd (by decide +kernel) hfield
  | false =>
    rw [overriding_capitalHost (of_decide_eq_false h)] at hraw
    exact absurd hraw (Option.not_mem_none raw)

/-- **A host that the environment sets under a name in small letters** can
be changed, and is back after a restart. Nothing is reported in between:
the check looks for the exact name, and the library for any spelling of
it. -/
theorem smallHost_reverts :
    ∃ app₀ app' view,
      start caseInsensitive (hostAs "llm__host") (some oldConfig) true = some app₀
        ∧ updateSettings caseInsensitive (hostAs "llm__host") app₀ withHostB true
          = .ok (app', view)
        ∧ buildSettings caseInsensitive (hostAs "llm__host") app'.config
          ≠ some withHostB.toEditableSettings := by
  obtain ⟨app₀, app', view, hstart, hupdate⟩ :=
    exists_accepted (hostAs "llm__host") withHostB (by decide +kernel)
  refine ⟨app₀, app', view, hstart, hupdate, ?_⟩
  rw [config_updateSettings hupdate]
  decide +kernel

end HostInEnvironment

end VisionBill
