import PolyLex.Proofs.Config.Overlay

/-!
# The settings of a configuration

A configuration is as good as its settings: each `Setting` has a path in the layers, a reader of its
value and a place in the configuration. Where the sections of a layer are tables, a configuration is
taken out of the layer setting by setting (`ofValue?_eq_some_iff`): what stands at the path of a
setting is read, and a setting whose path leads nowhere has its default.
-/

namespace PolyLex.Config

open Json (Value)
open Json.Value (at? LeadsThrough)
open Numeric

inductive Setting where
  | version
  | enabled
  | provider
  | model
  | apiBase
  | timeoutSecs
  | temperature
  | apiKey
  | siteUrl
  | siteName
  | defaultLanguage
  | outputDirectory
  deriving Repr, DecidableEq

namespace Setting

/-- The names that lead to the setting in a layer. -/
def path : Setting → List String
  | version => ["version"]
  | enabled => ["remote", "enabled"]
  | provider => ["remote", "provider"]
  | model => ["remote", "model"]
  | apiBase => ["remote", "api_base"]
  | timeoutSecs => ["remote", "timeout_secs"]
  | temperature => ["remote", "temperature"]
  | apiKey => ["remote", "api_key"]
  | siteUrl => ["remote", "site_url"]
  | siteName => ["remote", "site_name"]
  | defaultLanguage => ["analysis", "default_language"]
  | outputDirectory => ["export", "output_dir"]

/-- What a setting is. -/
abbrev Content : Setting → Type
  | enabled => Bool
  | timeoutSecs => Nat
  | temperature => Binary
  | apiKey | defaultLanguage => Option String
  | version | provider | model | apiBase | siteUrl | siteName | outputDirectory => String

/-- The setting of a configuration. -/
def get : (s : Setting) → Config → s.Content
  | version, c => c.version
  | enabled, c => c.remote.enabled
  | provider, c => c.remote.provider
  | model, c => c.remote.model
  | apiBase, c => c.remote.apiBase
  | timeoutSecs, c => c.remote.timeoutSecs
  | temperature, c => c.remote.temperature
  | apiKey, c => c.remote.apiKey
  | siteUrl, c => c.remote.siteUrl
  | siteName, c => c.remote.siteName
  | defaultLanguage, c => c.analysis.defaultLanguage
  | outputDirectory, c => c.results.outputDirectory

/-- The setting that a value stands for. -/
def read? : (s : Setting) → Value → Option s.Content
  | enabled => Json.bool?
  | timeoutSecs => Value.nat?
  | temperature => single?
  | apiKey | defaultLanguage => Json.nullable? Json.str?
  | version | provider | model | apiBase | siteUrl | siteName | outputDirectory => Json.str?

/-- The setting of a value that may be absent. -/
def readOr (s : Setting) : Option Value → Option s.Content := setting (s.get {}) s.read?

/-- No table is a setting. -/
theorem read?_obj (s : Setting) (members : List (String × Value)) : s.read? (.obj members) = none := by
  cases s <;> rfl

end Setting

/-! ### Reading records -/

/-- In an ordered table no field is repeated, so each is what is found. -/
theorem field?_of_ordered {members : List (String × Value)} (h : Keyed.Ordered members)
    (name : String) : Json.field? members name = some (Keyed.find? name members) := by
  induction members with
  | nil => rfl
  | cons m members ih =>
    obtain ⟨key, v⟩ := m
    by_cases hkey : key = name
    · -- the keys behind the first are other ones
      subst hkey
      have hnone : members.filter (fun m => m.1 == key) = [] := by
        refine List.filter_eq_nil_iff.mpr fun m hm hbeq => ?_
        have hlt : key < m.1 := h.head_lt m hm
        rw [eq_of_beq hbeq] at hlt
        exact String.lt_irrefl _ hlt
      simp [Json.field?, Keyed.find?, hnone]
    · have ih := ih h.tail
      rw [Json.field?] at ih ⊢
      rw [List.filter_cons_of_neg (by simpa using hkey), Keyed.find?, if_neg hkey, ih]

/-- The fields of an ordered table are what is found under their names. -/
theorem layerRecord?_obj {members : List (String × Value)} (h : Keyed.Ordered members)
    (names : List String) : layerRecord? names (.obj members) =
      some (names.map fun name => Keyed.find? name members) := by
  show names.mapM (Json.field? members) = _
  induction names with
  | nil => rfl
  | cons name names ih => simp [List.mapM_cons, field?_of_ordered h, ih]

section Sections

variable {members : List (String × Value)} (h : Keyed.Ordered members)
include h

/-- The settings of the remote service are read one by one. -/
theorem remote?_eq_some_iff {r : RemoteSettings} : remote? layerRecord? (.obj members) = some r ↔
      Setting.readOr .enabled (Keyed.find? "enabled" members) = some r.enabled ∧
      Setting.readOr .provider (Keyed.find? "provider" members) = some r.provider ∧
      Setting.readOr .model (Keyed.find? "model" members) = some r.model ∧
      Setting.readOr .apiBase (Keyed.find? "api_base" members) = some r.apiBase ∧
      Setting.readOr .timeoutSecs (Keyed.find? "timeout_secs" members) = some r.timeoutSecs ∧
      Setting.readOr .temperature (Keyed.find? "temperature" members) = some r.temperature ∧
      Setting.readOr .apiKey (Keyed.find? "api_key" members) = some r.apiKey ∧
      Setting.readOr .siteUrl (Keyed.find? "site_url" members) = some r.siteUrl ∧
      Setting.readOr .siteName (Keyed.find? "site_name" members) = some r.siteName := by
  rw [remote?, layerRecord?_obj h]
  simp only [List.map_cons, List.map_nil, Option.bind_eq_bind, Option.bind_some,
    Option.bind_eq_some_iff]
  constructor
  · rintro ⟨_, h₁, _, h₂, _, h₃, _, h₄, _, h₅, _, h₆, _, h₇, _, h₈, _, h₉, h⟩
    cases h
    exact ⟨h₁, h₂, h₃, h₄, h₅, h₆, h₇, h₈, h₉⟩
  · rintro ⟨h₁, h₂, h₃, h₄, h₅, h₆, h₇, h₈, h₉⟩
    exact ⟨_, h₁, _, h₂, _, h₃, _, h₄, _, h₅, _, h₆, _, h₇, _, h₈, _, h₉, rfl⟩

theorem analysis?_eq_some_iff {a : AnalysisSettings} :
    analysis? layerRecord? (.obj members) = some a ↔ Setting.readOr .defaultLanguage
      (Keyed.find? "default_language" members) = some a.defaultLanguage := by
  rw [analysis?, layerRecord?_obj h]
  simp only [List.map_cons, List.map_nil, Option.bind_eq_bind, Option.bind_some,
    Option.bind_eq_some_iff]
  constructor
  · rintro ⟨_, h, ⟨⟩⟩
    exact h
  · exact fun h => ⟨_, h, rfl⟩

theorem results?_eq_some_iff {r : ExportSettings} :
    results? layerRecord? (.obj members) = some r ↔ Setting.readOr .outputDirectory
      (Keyed.find? "output_dir" members) = some r.outputDirectory := by
  rw [results?, layerRecord?_obj h]
  simp only [List.map_cons, List.map_nil, Option.bind_eq_bind, Option.bind_some,
    Option.bind_eq_some_iff]
  constructor
  · rintro ⟨_, h, ⟨⟩⟩
    exact h
  · exact fun h => ⟨_, h, rfl⟩

end Sections

/-- The names of the sections. -/
def sectionNames : List String := ["remote", "analysis", "export"]

/-- A table whose sections are there and are tables. -/
structure Sectioned (v : Value) : Prop where
  tabled : v.Tabled
  sections : ∀ name ∈ sectionNames, ∃ inner, at? [name] v = some (.obj inner)

theorem Sectioned.exists_members {v : Value} (h : Sectioned v) : ∃ members remote analysis results,
    v = .obj members ∧ Keyed.find? "remote" members = some (.obj remote) ∧
    Keyed.find? "analysis" members = some (.obj analysis) ∧
    Keyed.find? "export" members = some (.obj results) := by
  cases v with
  | obj members =>
    have hfind : ∀ name ∈ sectionNames, ∃ inner, Keyed.find? name members = some (.obj inner) := by
      intro name hname
      obtain ⟨inner, hinner⟩ := h.sections name hname
      rw [at?, Value.members?, Option.bind_some, Option.bind_eq_some_iff] at hinner
      obtain ⟨w, hw, ⟨⟩⟩ := hinner
      exact ⟨inner, hw⟩
    obtain ⟨remote, hremote⟩ := hfind "remote" (by decide)
    obtain ⟨analysis, hanalysis⟩ := hfind "analysis" (by decide)
    obtain ⟨results, hresults⟩ := hfind "export" (by decide)
    exact ⟨members, remote, analysis, results, rfl, hremote, hanalysis, hresults⟩
  | _ =>
    obtain ⟨_, hinner⟩ := h.sections "remote" (by decide)
    cases hinner

/-- A single name leads to what a table holds under it. -/
theorem at?_singleton (name : String) (members : List (String × Value)) :
    at? [name] (.obj members) = Keyed.find? name members := by
  simp [at?, Value.members?]

/-- Under the name of a section, a second name leads to what the section holds under it. -/
theorem at?_section {members inner : List (String × Value)} {name : String}
    (h : Keyed.find? name members = some (.obj inner)) (key : String) :
    at? [name, key] (.obj members) = Keyed.find? key inner := by
  simp [at?, Value.members?, h]

/-- A configuration is what its settings are, each read from its path. -/
theorem ofValue?_eq_some_iff {v : Value} (h : Sectioned v) {c : Config} :
    ofValue? layerRecord? v = some c ↔
      ∀ s : Setting, s.readOr (at? s.path v) = some (s.get c) := by
  obtain ⟨members, remote, analysis, results, rfl, hremote, hanalysis, hresults⟩ :=
    h.exists_members
  have hinner : ∀ {name inner}, Keyed.find? name members = some (.obj inner) →
      Keyed.Ordered inner := fun hfind => (h.tabled.of_find? hfind).ordered
  rw [ofValue?, layerRecord?_obj h.tabled.ordered]
  simp only [List.map_cons, List.map_nil, Option.bind_eq_bind, Option.bind_some,
    Option.bind_eq_some_iff, hremote, hanalysis, hresults, setting, Json.fieldOr,
    remote?_eq_some_iff (hinner hremote), analysis?_eq_some_iff (hinner hanalysis),
    results?_eq_some_iff (hinner hresults)]
  constructor
  -- What is left are the settings of the remote service, one field each.
  · rintro ⟨version, hversion, r, hr, a, ha, e, he, ⟨⟩⟩ s
    cases s <;> simp only [Setting.path, Setting.get, at?_singleton, at?_section hremote,
      at?_section hanalysis, at?_section hresults]
    case version => exact hversion
    case defaultLanguage => exact ha
    case outputDirectory => exact he
    all_goals grind
  · intro hall
    refine ⟨c.version, ?_, c.remote, ?_, c.analysis, ?_, c.results, ?_, rfl⟩
    · exact at?_singleton _ members ▸ hall .version
    · have hremotes := fun key => at?_section hremote key
      exact ⟨hremotes _ ▸ hall .enabled, hremotes _ ▸ hall .provider,
        hremotes _ ▸ hall .model, hremotes _ ▸ hall .apiBase,
        hremotes _ ▸ hall .timeoutSecs, hremotes _ ▸ hall .temperature,
        hremotes _ ▸ hall .apiKey, hremotes _ ▸ hall .siteUrl,
        hremotes _ ▸ hall .siteName⟩
    · exact at?_section hanalysis _ ▸ hall .defaultLanguage
    · exact at?_section hresults _ ▸ hall .outputDirectory

end PolyLex.Config
