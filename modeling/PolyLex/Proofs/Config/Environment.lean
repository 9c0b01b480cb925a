import PolyLex.Proofs.Config.Misfit
import PolyLex.Proofs.Config.Variable
import PolyLex.Proofs.Url.Address
import PolyLex.Url.Domain

/-!
# A setting from the environment

Where no file holds settings and one variable of the environment does, a load has defaults
everywhere else (`ofLayers?_only`). Whether it succeeds depends on what the text of the variable is
read as: a setting of text takes a text that stands for itself, and refuses truth values and
numbers, though they were written as texts (`load_only`).
-/

namespace PolyLex.Config

open Environment (path? value Bare IsTyped)
open Files
open Json (Value)
open Json.Value (at?)

/-- The variable is the one setting there is: no other names a setting, and no file holds any. -/
structure OnlyVariable (tree : Tree) (vars : Environment.Variables) (name text : String) : Prop where
  given : (name, text) ∈ vars
  others : ∀ v ∈ vars, v ≠ (name, text) → path? v.1 = none
  noFile : ∀ path ∈ filePaths vars, tree.has path = false

/-! ### The layer of the environment -/

/-- What is put at a path stands there, laid over what stood there before. -/
theorem at?_overlay_nest_self {path : List String} {below : Value} (hbelow : below.Tabled)
    (v : Value) : at? path (overlay below (nest v path)) =
      some (overlay ((at? path below).getD .null) v) := by
  induction path generalizing below with
  | nil => rfl
  | cons key path ih =>
    rw [Value.at?_cons key path below, nest, overlay_obj]
    show (Keyed.find? key (Keyed.update key _ _)).bind (at? path) = _
    rw [Keyed.find?_update_self _ _ hbelow.members.ordered, Option.bind_some]
    cases hold : Keyed.find? key (below.members?.getD []) with
    | some old => exact ih (hbelow.members.of_find? hold)
    | none =>
      rw [Option.getD_none, ih Json.Value.tabled_null]
      cases path <;> rfl

/-- What is no table replaces what it is laid over. -/
theorem overlay_of_no_table {v : Value} (h : v.members? = none) (below : Value) :
    overlay below v = v := by
  cases v with
  | obj members => cases h
  | _ => rfl

variable {tree : Tree} {vars : Environment.Variables} {name text : String} {s : Setting}

/-- The environment gives the one setting, though perhaps more than once. -/
theorem OnlyVariable.settings_eq (h : OnlyVariable tree vars name text)
    (hpath : path? name = some s.path) :
    ∃ n, Environment.settings vars = List.replicate (n + 1) (s.path, value text) := by
  have hall : ∀ e ∈ Environment.settings vars, e = (s.path, value text) := by
    intro e he
    obtain ⟨v, hv, he⟩ := List.mem_filterMap.mp he
    by_cases hsame : v = (name, text)
    · subst hsame
      simpa [hpath, eq_comm] using he
    · simp [h.others v hv hsame] at he
  have hmem : (s.path, value text) ∈ Environment.settings vars :=
    List.mem_filterMap.mpr ⟨_, h.given, by simp [hpath]⟩
  obtain ⟨n, hn⟩ := Nat.exists_eq_succ_of_ne_zero (List.length_pos_of_mem hmem).ne'
  refine ⟨n, ?_⟩
  rw [← Nat.succ_eq_add_one, ← hn]
  exact List.eq_replicate_of_mem hall

theorem layered_empty : Layered (.obj []) := ⟨Json.Value.tabled_empty, ⟨[], rfl⟩, by decide⟩

theorem at?_empty (s : Setting) : at? s.path (.obj []) = none := by
  cases s <;> rfl

/-- A layer that gives nothing but one setting. -/
structure GivesOnly (layer : Value) (s : Setting) (v : Value) : Prop where
  layered : Layered layer
  given : at? s.path layer = some v
  others : ∀ other ≠ s, at? other.path layer = none

/-- The environment gives the setting of its only variable and no other. -/
theorem OnlyVariable.givesOnly (h : OnlyVariable tree vars name text)
    (hpath : path? name = some s.path) (hvalue : (value text).members? = none) :
    GivesOnly (ofEnvironment vars) s (value text) := by
  obtain ⟨n, hsettings⟩ := h.settings_eq hpath
  have hput : ∀ layer, Layered layer → (∀ other ≠ s, at? other.path layer = none) →
      GivesOnly (overlay layer (nest (value text) s.path)) s (value text) := by
    intro layer hlayer hothers
    refine ⟨hlayer.overlay_nest s _, ?_, fun other hne => ?_⟩
    · rw [at?_overlay_nest_self hlayer.tabled, overlay_of_no_table hvalue]
    · rw [at?_overlay_nest (Setting.paths_apart hne) (Setting.paths_apart hne.symm) hlayer.tabled]
      exact hothers other hne
  rw [ofEnvironment, hsettings]
  -- The variable may be set several times over; each time the layer gives the same.
  clear hsettings
  induction n with
  | zero => exact hput _ layered_empty fun other _ => at?_empty other
  | succ n ih =>
    rw [List.replicate_succ', List.foldl_append]
    exact hput _ ih.layered ih.others

/-- The layers of a load without files: empty ones, and the environment. -/
theorem OnlyVariable.layers_eq (h : OnlyVariable tree vars name text) :
    layers tree vars =
      .ok ((filePaths vars).map (fun _ => .obj []) ++ [ofEnvironment vars]) := by
  refine layers_eq_ok_iff.mpr ⟨_, ?_, rfl⟩
  have hfiles : ∀ path ∈ filePaths vars, presentLayer tree path = .ok (.obj []) := by
    intro path hpath
    rw [presentLayer, if_neg (by simp [h.noFile path hpath])]
  rw [List.forall₂_map_right_iff]
  exact List.forall₂_same.mpr hfiles

theorem highest?_concat_empty {paths : List String} (layer : Value) (s : Setting) :
    highest? s.path (paths.map (fun _ => Value.obj []) ++ [layer]) = at? s.path layer := by
  induction paths with
  | nil => simp [highest?]
  | cons path paths ih =>
    rw [List.map_cons, List.cons_append, highest?_cons, ih, at?_empty, Option.or_none]

/-- The layers of a load without files are tables of tables. -/
theorem OnlyVariable.layered (h : OnlyVariable tree vars name text)
    (hpath : path? name = some s.path) (hvalue : (value text).members? = none) :
    ∀ layer ∈ (filePaths vars).map (fun _ => Value.obj []) ++ [ofEnvironment vars],
      Layered layer := by
  intro layer hlayer
  rcases List.mem_append.mp hlayer with hfile | henv
  · obtain ⟨_, -, rfl⟩ := List.mem_map.mp hfile
    exact layered_empty
  · obtain rfl := List.mem_singleton.mp henv
    exact (h.givesOnly hpath hvalue).layered

/-- The configurations of the layers: the setting is what the variable is read as, and all others
have their defaults. -/
theorem OnlyVariable.ofLayers?_eq_some_iff (h : OnlyVariable tree vars name text)
    (hpath : path? name = some s.path) (hvalue : (value text).members? = none)
    {ls : List Value} (hls : layers tree vars = .ok ls) {c : Config} :
    ofLayers? ls = some c ↔
      s.read? (value text) = some (s.get c) ∧ ∀ other ≠ s, other.get c = other.get {} := by
  have hgives := h.givesOnly hpath hvalue
  obtain rfl := Except.ok.inj (h.layers_eq.symm.trans hls)
  rw [Config.ofLayers?_eq_some_iff (h.layered hpath hvalue)]
  simp only [highest?_concat_empty]
  constructor
  · intro hall
    refine ⟨?_, fun other hne => ?_⟩
    · simpa [hgives.given] using hall s
    · simpa [hgives.others other hne] using hall other
  · rintro ⟨hgiven, hothers⟩ other
    by_cases hne : other = s
    · subst hne
      simpa [hgives.given] using hgiven
    · simpa [hgives.others other hne] using hothers other hne

/-! ### Settings of text -/

/-- The settings of text on which no demand is made. -/
inductive FreeText where
  | version
  | provider
  | model
  | apiKey
  | siteUrl
  | siteName
  | outputDirectory
  deriving Repr, DecidableEq

namespace FreeText

def setting : FreeText → Setting
  | version => .version
  | provider => .provider
  | model => .model
  | apiKey => .apiKey
  | siteUrl => .siteUrl
  | siteName => .siteName
  | outputDirectory => .outputDirectory

/-- The name of the variable of the environment. -/
def variableName : FreeText → String
  | version => "LEXISCAN_VERSION"
  | provider => "LEXISCAN_REMOTE__PROVIDER"
  | model => "LEXISCAN_REMOTE__MODEL"
  | apiKey => "LEXISCAN_REMOTE__API_KEY"
  | siteUrl => "LEXISCAN_REMOTE__SITE_URL"
  | siteName => "LEXISCAN_REMOTE__SITE_NAME"
  | outputDirectory => "LEXISCAN_EXPORT__OUTPUT_DIR"

/-- The defaults with one text in place of another. -/
def config (text : String) : FreeText → Config
  | version => { version := text }
  | provider => { remote := { provider := text } }
  | model => { remote := { model := text } }
  | apiKey => { remote := { apiKey := some text } }
  | siteUrl => { remote := { siteUrl := text } }
  | siteName => { remote := { siteName := text } }
  | outputDirectory => { results := { outputDirectory := text } }

/-- The name of the variable leads to the setting. -/
theorem path?_variableName (t : FreeText) : path? t.variableName = some t.setting.path := by
  cases t <;> decide +kernel

theorem read?_str (t : FreeText) (text : String) :
    t.setting.read? (.str text) = some (t.setting.get (t.config text)) := by
  cases t <;> rfl

theorem get_config_of_ne (t : FreeText) (text : String) {other : Setting} (h : other ≠ t.setting) :
    other.get (t.config text) = other.get {} := by
  cases t <;> cases other <;> first | rfl | exact absurd rfl h

/-- The default base is an address, whatever rules there are for domain names. -/
theorem parse_defaultBase [Url.DomainNames] :
    Url.Address.parse ({} : RemoteSettings).apiBase =
      .ok ⟨"https", some ⟨"", .name "openrouter.ai", none⟩, .segments ["api", "v1"]⟩ := by
  -- The rules for domain names leave plain names alone, which is all that is used of them.
  have hhost : Url.Host.ofText "openrouter.ai".toList = .ok (.name "openrouter.ai") :=
    Url.Host.ofText_plain (Text.forall_mem_of_all (by decide)) (by decide) (by decide +kernel)
  have hauthority : Url.readAuthority (.web 443) "openrouter.ai".toList =
      .ok ⟨"", .name "openrouter.ai", none⟩ := by
    have huser : Url.splitUser "openrouter.ai".toList = (none, "openrouter.ai".toList) := by decide
    have hport : Url.splitHost false "openrouter.ai".toList = ("openrouter.ai".toList, []) := by
      decide
    simp only [Url.readAuthority, huser, hport]
    rw [hhost]
    rfl
  have hscheme : Url.splitScheme? (Url.dropQuery (Url.clean
      "https://openrouter.ai/api/v1".toList)) =
        some ("https", "//openrouter.ai/api/v1".toList) := by
    decide +kernel
  rw [Url.Address.parse_of_splitScheme? hscheme rfl, Url.readWeb_eq]
  show (Url.readAuthority (.web 443) "openrouter.ai".toList).map _ = _
  rw [hauthority]
  decide

/-- No demand is made on the text. -/
theorem validate_config [Url.DomainNames] (t : FreeText) (text : String) :
    (t.config text).validate = .ok () := by
  have hdefault : checkRemote {} = .ok () := by
    have hnumbers : ({} : RemoteSettings).temperature.inUnitRange temperatureLimit = true ∧
        ({} : RemoteSettings).timeoutSecs ≠ 0 := by decide
    rw [checkRemote, hnumbers.1, if_neg (by decide), if_neg hnumbers.2, checkBase,
      parse_defaultBase]
    rfl
  have hremote : checkRemote (t.config text).remote = .ok () := by
    cases t <;> exact hdefault
  have hlanguage : (t.config text).analysis.defaultLanguage = none := by
    cases t <;> rfl
  rw [validate, hremote, hlanguage]

/-- A truth value or a number is no text. -/
theorem read?_typed (t : FreeText) {v : Value}
    (h : (∃ b, v = .bool b) ∨ (∃ n, v = .int n) ∨ ∃ x, v = .real .double x) :
    t.setting.read? v = none := by
  rcases h with ⟨b, rfl⟩ | ⟨n, rfl⟩ | ⟨x, rfl⟩ <;> cases t <;> rfl

end FreeText

/-- A bare text that is the only setting given is loaded as it stands, with the defaults everywhere
else, unless it is typed: what names a truth value or is a number is refused, with a word on that
setting. -/
theorem load_only [Url.DomainNames] (t : FreeText) (h : OnlyVariable tree vars t.variableName text)
    (hbare : Bare text.toList) :
    (¬IsTyped text.toList → load tree vars = .ok (t.config text)) ∧
      (IsTyped text.toList → load tree vars = .error (.config t.setting.problem)) := by
  have hload : load tree vars =
      check ((filePaths vars).map (fun _ => .obj []) ++ [ofEnvironment vars]) := by
    rw [load_eq, h.layers_eq]
    rfl
  constructor
  · intro htyped
    have hvalue := Environment.value_of_not_isTyped hbare htyped
    rw [hload, check_eq_ok_iff, h.ofLayers?_eq_some_iff t.path?_variableName
      (by rw [hvalue]; rfl) h.layers_eq, hvalue]
    exact ⟨⟨t.read?_str text, fun _ => t.get_config_of_ne text⟩, t.validate_config text⟩
  · intro htyped
    have hvalue := Environment.value_of_isTyped hbare htyped
    have htable : (value text).members? = none := by
      rcases hvalue with ⟨_, h⟩ | ⟨_, h⟩ | ⟨_, h⟩ <;> rw [h] <;> rfl
    have hnone : ofLayers? ((filePaths vars).map (fun _ => .obj []) ++ [ofEnvironment vars]) =
        none := by
      refine Option.eq_none_iff_forall_ne_some.mpr fun c hc => ?_
      have hread :=
        ((h.ofLayers?_eq_some_iff t.path?_variableName htable h.layers_eq).mp hc).1
      rw [t.read?_typed hvalue] at hread
      cases hread
    -- No other setting is given, so no other one is to blame.
    have hgives := h.givesOnly t.path?_variableName htable
    obtain ⟨s, w, hhighest, -, hmisfit⟩ :=
      exists_mistyped (h.layered t.path?_variableName htable) hnone
    have hsetting : s = t.setting := by
      by_contra hne
      rw [highest?_concat_empty, hgives.others s hne] at hhighest
      cases hhighest
    rw [hload, check, hnone, hmisfit, hsetting]

/-- A place without files. -/
def emptyTree : Tree := ⟨.directory [], []⟩

/-- An environment of one variable and a place without files. -/
theorem onlyVariable_singleton (name text : String) (h : globalFile? [(name, text)] = none) :
    OnlyVariable emptyTree [(name, text)] name text where
  given := List.mem_singleton_self _
  others := fun v hv hne => absurd (List.mem_singleton.mp hv) hne
  noFile := by
    rw [filePaths, h]
    decide

/-- A model is set, and a key of digits is not. -/
theorem load_model :
    load emptyTree [("LEXISCAN_REMOTE__MODEL", "gpt-4")] = .ok { remote := { model := "gpt-4" } } ∧
    load emptyTree [("LEXISCAN_REMOTE__API_KEY", "123456")] =
      .error (.config (.mistyped ["remote", "api_key"] "a string")) := by
  have hmodel : ¬IsTyped "gpt-4".toList := by
    rintro (⟨b, hb⟩ | hnumber)
    · cases b <;> exact absurd hb (by decide)
    · cases hnumber.marks 'g' (by simp)
  have hkey : IsTyped "123456".toList :=
    .inr (.inl (@Environment.IsWhole.intro [] _ _ .absent ⟨by simp, by simp; decide⟩ (by decide)))
  exact ⟨(load_only .model (onlyVariable_singleton _ _ rfl) (by decide)).1 hmodel,
    (load_only .apiKey (onlyVariable_singleton _ _ rfl) (by decide)).2 hkey⟩

/-- The default version cannot be given as it is. -/
theorem load_numericVersion :
    OnlyVariable emptyTree [("LEXISCAN_VERSION", "1.0")] "LEXISCAN_VERSION" "1.0" ∧
      "1.0" ≠ "" ∧ Bare "1.0".toList ∧
      ¬∃ c, load emptyTree [("LEXISCAN_VERSION", "1.0")] = .ok c := by
  refine ⟨onlyVariable_singleton _ _ rfl, by decide, by decide, ?_⟩
  rintro ⟨c, hc⟩
  have hfails : (load emptyTree [("LEXISCAN_VERSION", "1.0")]).toOption = none := by decide +kernel
  rw [hc] at hfails
  cases hfails

end PolyLex.Config
