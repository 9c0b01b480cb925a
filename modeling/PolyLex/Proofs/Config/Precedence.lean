import PolyLex.Proofs.Config.Settings
import PolyLex.Proofs.Config.Store
import PolyLex.Proofs.Text.Parts
import PolyLex.Proofs.Toml.Values
import PolyLex.Url.Domain

/-!
# Which layer counts

Each setting of a configuration that is loaded is what the highest layer says that gives it, and the
default if none does. The environment stands over the project's file and that over the user's.
Settings do not reach into each other: what is given for one leaves all others as they are.

A layer that gives a section as something else than a table is left out of account.
-/

namespace PolyLex

namespace Environment

/-- A variable that is a setting names something. -/
theorem ne_nil_of_path? {name : String} {path : List String} (h : path? name = some path) :
    path ≠ [] := by
  obtain ⟨rest, -, h⟩ := Option.bind_eq_some_iff.mp h
  dsimp only at h
  split at h
  · cases h
  · cases h
    simpa using Text.splitBy_ne_nil _ _

/-- No variable of the environment gives a setting without a name. -/
theorem ne_nil_of_mem_settings {vars : Variables} {s : List String × Json.Value}
    (h : s ∈ settings vars) : s.1 ≠ [] := by
  obtain ⟨v, -, h⟩ := List.mem_filterMap.mp h
  obtain ⟨path, hpath, rfl⟩ := Option.map_eq_some_iff.mp h
  exact ne_nil_of_path? hpath

end Environment

namespace Config

open Json (Value)
open Json.Value (at? LeadsThrough Tabled tabled_null tabled_empty)
open Files

/-! ### Ways through layers -/

/-- The layer gives a section as a table or not at all. -/
def GivesTables (layer : Value) : Prop :=
  ∀ name ∈ sectionNames, (at? [name] layer).all fun v => v.members?.isSome

instance (layer : Value) : Decidable (GivesTables layer) := List.decidableBAll _ _

/-- What a layer gives for a section is a table. -/
theorem GivesTables.exists_obj {layer v : Value} {name : String} (h : GivesTables layer)
    (hname : name ∈ sectionNames) (hv : at? [name] layer = some v) :
    ∃ members, v = .obj members := by
  have htable := h name hname
  rw [hv, Option.all_some] at htable
  cases v with
  | obj members => exact ⟨members, rfl⟩
  | _ => cases htable

/-- A table that gives sections as tables only. -/
structure Layered (layer : Value) : Prop where
  tabled : layer.Tabled
  isTable : ∃ members, layer = .obj members
  sections : GivesTables layer

/-- A setting stands at the top or in one of the sections. -/
theorem Setting.path_eq (s : Setting) :
    s.path = ["version"] ∨ ∃ name ∈ sectionNames, ∃ key, s.path = [name, key] := by
  cases s <;> simp [path, sectionNames]

/-- On the way to a setting, a layer of tables has a table or nothing. -/
theorem Layered.leadsThrough {layer : Value} (h : Layered layer) (s : Setting) :
    LeadsThrough s.path layer := by
  obtain ⟨members, rfl⟩ := h.isTable
  rcases s.path_eq with hpath | ⟨name, hname, key, hpath⟩
  · rw [hpath]
    exact ⟨members, rfl, fun _ _ => trivial⟩
  · rw [hpath]
    refine ⟨members, rfl, fun v hv => ?_⟩
    obtain ⟨inner, rfl⟩ := h.sections.exists_obj hname ((at?_singleton name members).trans hv)
    exact ⟨inner, rfl, fun _ _ => trivial⟩

/-- The sections stay tables under a layer of tables. -/
theorem Sectioned.overlay {below layer : Value} (hbelow : Sectioned below) (h : Layered layer) :
    Sectioned (overlay below layer) := by
  refine ⟨tabled_overlay hbelow.tabled _, fun name hname => ?_⟩
  have hway : LeadsThrough [name] layer := by
    obtain ⟨members, rfl⟩ := h.isTable
    exact ⟨members, rfl, fun _ _ => trivial⟩
  rw [at?_overlay hbelow.tabled h.tabled hway]
  cases hat : at? [name] layer with
  | none => exact hbelow.sections name hname
  | some v =>
    obtain ⟨inner, rfl⟩ := h.sections.exists_obj hname hat
    exact ⟨_, congrArg some (overlay_obj _ _)⟩

theorem sectioned_defaults : Sectioned defaults := by
  refine ⟨Value.tabled_settled _, ?_⟩
  simp only [sectionNames, List.forall_mem_cons, List.not_mem_nil, false_implies, implies_true,
    and_true]
  exact ⟨⟨_, rfl⟩, ⟨_, rfl⟩, ⟨_, rfl⟩⟩

/-- What is not given has its default. -/
theorem readOr_defaults (s : Setting) : s.readOr (at? s.path defaults) = some (s.get {}) := by
  cases s <;> rfl

/-! ### The highest layer -/

/-- A setting is what the upper layer says, and where that says nothing, what the lower one does. -/
theorem readOr_overlay {below layer : Value} (hbelow : below.Tabled) (h : Layered layer)
    (s : Setting) : s.readOr (at? s.path (overlay below layer)) =
      match at? s.path layer with
      | some v => s.read? v
      | none => s.readOr (at? s.path below) := by
  rw [at?_overlay hbelow h.tabled (h.leadsThrough s)]
  cases at? s.path layer with
  | none => rfl
  | some v =>
    cases v with
    | obj members =>
      -- a table laid over something is a table, which no setting is
      simp only [overlay_obj, Setting.readOr, setting, Json.fieldOr, s.read?_obj]
    | _ => rfl

/-- What the highest of some layers holds at a path; the lowest layer comes first. -/
def highest? (path : List String) (layers : List Value) : Option Value :=
  layers.reverse.findSome? (at? path)

theorem highest?_cons (path : List String) (layer : Value) (layers : List Value) :
    highest? path (layer :: layers) = (highest? path layers).or (at? path layer) := by
  simp [highest?, List.findSome?_append]

/-- The sections stay tables under any number of layers. -/
theorem sectioned_foldl_overlay {below : Value} {layers : List Value} (hbelow : Sectioned below)
    (h : ∀ layer ∈ layers, Layered layer) : Sectioned (layers.foldl overlay below) := by
  induction layers generalizing below with
  | nil => exact hbelow
  | cons layer layers ih =>
    rw [List.forall_mem_cons] at h
    exact ih (hbelow.overlay h.1) h.2

/-- A setting is what the highest layer says that says something. -/
theorem readOr_foldl_overlay {below : Value} {layers : List Value} (hbelow : below.Tabled)
    (h : ∀ layer ∈ layers, Layered layer) (s : Setting) :
    s.readOr (at? s.path (layers.foldl overlay below)) =
      match highest? s.path layers with
      | some v => s.read? v
      | none => s.readOr (at? s.path below) := by
  induction layers generalizing below with
  | nil => rfl
  | cons layer layers ih =>
    rw [List.forall_mem_cons] at h
    rw [List.foldl_cons, ih (tabled_overlay hbelow layer) h.2, highest?_cons]
    cases highest? s.path layers with
    | some v => rfl
    | none => exact readOr_overlay hbelow h.1 s

/-- The configuration that layers amount to, setting by setting. -/
theorem ofLayers?_eq_some_iff {layers : List Value} (h : ∀ layer ∈ layers, Layered layer)
    {c : Config} : ofLayers? layers = some c ↔ ∀ s : Setting,
      match highest? s.path layers with
      | some v => s.read? v = some (s.get c)
      | none => s.get c = s.get {} := by
  rw [ofLayers?, ofValue?_eq_some_iff (sectioned_foldl_overlay sectioned_defaults h)]
  refine forall_congr' fun s => ?_
  rw [readOr_foldl_overlay sectioned_defaults.tabled h]
  cases highest? s.path layers with
  | some v => rfl
  | none =>
    rw [readOr_defaults, Option.some.injEq]
    exact eq_comm

/-! ### One setting more -/

/-- What is put at one path does not show at another that leads elsewhere. -/
theorem at?_overlay_nest {path other : List String} (hother : ¬path <+: other)
    (hpath : ¬other <+: path) {below : Value} (hbelow : below.Tabled) (v : Value) :
    at? path (overlay below (nest v other)) = at? path below := by
  induction path generalizing other below with
  | nil => exact absurd List.nil_prefix hother
  | cons key path ih =>
    cases other with
    | nil => exact absurd List.nil_prefix hpath
    | cons name other =>
      rw [Value.at?_cons key path below, nest, overlay_obj]
      show (Keyed.find? key (Keyed.update name _ _)).bind (at? path) = _
      by_cases hname : name = key
      -- The paths share a name, so they part further down.
      · subst hname
        rw [List.cons_prefix_cons, not_and] at hother hpath
        rw [Keyed.find?_update_self _ _ hbelow.members.ordered, Option.bind_some]
        cases hold : Keyed.find? name (below.members?.getD []) with
        | some old => exact ih (hother rfl) (hpath rfl) (hbelow.members.of_find? hold)
        -- Nothing was under that name, and the new table has nothing on the path either.
        | none =>
          rw [Option.getD_none, ih (hother rfl) (hpath rfl) tabled_null]
          cases path with
          | nil => exact absurd List.nil_prefix (hother rfl)
          | cons => rfl
      · rw [Keyed.find?_update_of_ne _ hname]

/-- No setting lies on the way to another. -/
theorem Setting.paths_apart {s other : Setting} (h : s ≠ other) : ¬s.path <+: other.path := by
  revert h
  cases s <;> cases other <;> decide

/-- One setting more keeps a layer a table of tables. -/
theorem Layered.overlay_nest {layer : Value} (h : Layered layer) (s : Setting) (v : Value) :
    Layered (overlay layer (nest v s.path)) := by
  refine ⟨tabled_overlay h.tabled _, ?_, fun name hname => ?_⟩
  · rcases s.path_eq with hpath | ⟨_, _, _, hpath⟩ <;>
      exact ⟨_, by rw [hpath, nest, overlay_obj]⟩
  · rcases s.path_eq with hpath | ⟨other, hother, key, hpath⟩
    · have hne : name ≠ "version" := by
        rintro rfl
        revert hname
        decide
      rw [hpath, at?_overlay_nest (by simp [hne]) (by simp [hne.symm]) h.tabled]
      exact h.sections name hname
    -- The section of the setting stays a table, the others are not touched.
    · by_cases hsame : other = name
      · subst hsame
        obtain ⟨members, rfl⟩ := h.isTable
        rw [hpath, nest, overlay_obj, at?_singleton]
        show (Keyed.find? other (Keyed.update other _ members)).all _ = true
        rw [Keyed.find?_update_self _ _ h.tabled.ordered, nest, overlay_obj]
        rfl
      · rw [hpath, at?_overlay_nest (by simp [Ne.symm hsame]) (by simp [hsame]) h.tabled]
        exact h.sections name hname

/-- A layer matters to a setting only by what it holds at its path. -/
theorem highest?_congr {path : List String} {front back : List Value} {layer layer' : Value}
    (h : at? path layer' = at? path layer) :
    highest? path (front ++ layer' :: back) = highest? path (front ++ layer :: back) := by
  simp only [highest?, List.reverse_append, List.reverse_cons, List.findSome?_append,
    List.findSome?_cons, h]

/-! ### Loading -/

/-- The environment is a table, since no variable sets everything. -/
theorem ofEnvironment_table (vars : Environment.Variables) :
    (ofEnvironment vars).Tabled ∧ ∃ members, ofEnvironment vars = .obj members := by
  suffices ∀ (settings : List (List String × Value)) (layer : Value),
      (∀ s ∈ settings, s.1 ≠ []) → layer.Tabled → (∃ members, layer = .obj members) →
        (settings.foldl (fun layer s => overlay layer (nest s.2 s.1)) layer).Tabled ∧
          ∃ members, settings.foldl (fun layer s => overlay layer (nest s.2 s.1)) layer =
            .obj members from
    this _ _ (fun _ => Environment.ne_nil_of_mem_settings) tabled_empty ⟨[], rfl⟩
  intro settings
  induction settings with
  | nil => exact fun layer _ htabled htable => ⟨htabled, htable⟩
  | cons s settings ih =>
    intro layer hpaths htabled _
    obtain ⟨hpath, hpaths⟩ := List.forall_mem_cons.mp hpaths
    obtain ⟨key, path, hpath⟩ := List.exists_cons_of_ne_nil hpath
    exact ih _ hpaths (tabled_overlay htabled _) ⟨_, by dsimp only; rw [hpath, nest, overlay_obj]⟩

/-- The layer of a file is a table of tables. -/
theorem presentLayer_table {tree : Tree} {path : String} {layer : Value}
    (h : presentLayer tree path = .ok layer) : layer.Tabled ∧ ∃ members, layer = .obj members := by
  unfold presentLayer at h
  split at h
  · rcases fileLayer_eq_ok_iff.mp h with ⟨-, rfl⟩ | ⟨_, members, -, hparse, rfl⟩
    · exact ⟨tabled_empty, [], rfl⟩
    · exact ⟨Toml.tabled_parse? hparse, members, rfl⟩
  · cases h
    exact ⟨tabled_empty, [], rfl⟩

/-- The layers of a load are tables of tables, if each gives its sections as tables. -/
theorem layered_of_layers {tree : Tree} {vars : Environment.Variables} {ls : List Value}
    (h : layers tree vars = .ok ls) (htables : ∀ layer ∈ ls, GivesTables layer) :
    ∀ layer ∈ ls, Layered layer := by
  obtain ⟨files, hfiles, rfl⟩ := layers_eq_ok_iff.mp h
  have htabled : ∀ layer ∈ files, layer.Tabled ∧ ∃ members, layer = .obj members := by
    clear h htables
    generalize filePaths vars = paths at hfiles
    induction hfiles with
    | nil => simp
    | cons hlayer _ ih => exact List.forall_mem_cons.mpr ⟨presentLayer_table hlayer, ih⟩
  intro layer hlayer
  have htable : layer.Tabled ∧ ∃ members, layer = .obj members := by
    rcases List.mem_append.mp hlayer with hfile | henv
    · exact htabled layer hfile
    · obtain rfl := List.mem_singleton.mp henv
      exact ofEnvironment_table vars
  exact ⟨htable.1, htable.2, htables layer hlayer⟩

/-- A setting of the configuration that a load returns is what the highest layer gives for it, and
the default if none does. And where one layer gives a setting in addition or another way, every
other setting stays. -/
theorem load_settings [Url.DomainNames] {tree : Tree} {vars : Environment.Variables} {c : Config}
    (hload : load tree vars = .ok c)
    (htables : ∀ ls, layers tree vars = .ok ls → ∀ layer ∈ ls, GivesTables layer) :
    ∃ ls, layers tree vars = .ok ls ∧
      (∀ s : Setting, match highest? s.path ls with
        | some v => s.read? v = some (s.get c)
        | none => s.get c = s.get {}) ∧
      ∀ (front back : List Value) (layer v : Value) (s : Setting), ls = front ++ layer :: back →
        ∀ (tree' : Tree) (vars' : Environment.Variables) (c' : Config),
          layers tree' vars' = .ok (front ++ overlay layer (nest v s.path) :: back) →
          load tree' vars' = .ok c' → ∀ other, other ≠ s → other.get c' = other.get c := by
  obtain ⟨ls, hls, hcheck⟩ := load_eq_ok_iff.mp hload
  have hlayered := layered_of_layers hls (htables ls hls)
  have hget := (ofLayers?_eq_some_iff hlayered).mp (check_eq_ok_iff.mp hcheck).1
  refine ⟨ls, hls, hget, fun front back layer v s hsplit tree' vars' c' hls' hload' other hne => ?_⟩
  subst hsplit
  have hlayer : Layered layer := hlayered layer (by simp)
  -- the other layers are the same, and this one still gives tables
  have hlayered' : ∀ l ∈ front ++ overlay layer (nest v s.path) :: back, Layered l := by
    intro l hl
    simp only [List.mem_append, List.mem_cons] at hl
    rcases hl with hl | rfl | hl
    · exact hlayered l (by simp [hl])
    · exact hlayer.overlay_nest s v
    · exact hlayered l (by simp [hl])
  obtain ⟨ls', hls'', hcheck'⟩ := load_eq_ok_iff.mp hload'
  obtain rfl : _ = ls' := Except.ok.inj (hls'.symm.trans hls'')
  have hget' := (ofLayers?_eq_some_iff hlayered').mp (check_eq_ok_iff.mp hcheck').1 other
  have hother := hget other
  rw [highest?_congr (at?_overlay_nest (Setting.paths_apart hne) (Setting.paths_apart hne.symm)
    hlayer.tabled v)] at hget'
  cases hhigh : highest? other.path (front ++ layer :: back) with
  | none =>
    rw [hhigh] at hget' hother
    exact hget'.trans hother.symm
  | some w =>
    rw [hhigh] at hget' hother
    exact Option.some.inj (hget'.symm.trans hother)

/-- The user's file gives a version, a model and a bound, the project's file another model and the
environment another bound. -/
theorem load_settings_threeLayers :
    let file := fun text => Node.file (.text text)
    let user := Node.directory [("lexiscan", .directory [("config.toml",
      file "version = \"2.0\"\n[remote]\nmodel = \"a\"\ntimeout_secs = 5\n")])]
    let project := Node.directory [("config.toml", file "[remote]\nmodel = \"b\"\n")]
    let tree : Tree := ⟨.directory [(".config", user), ("work", .directory [(".lexiscan", project)])],
      ["work"]⟩
    let vars := [("HOME", "/"), ("LEXISCAN_REMOTE__TIMEOUT_SECS", "90")]
    let c : Config := { version := "2.0", remote := { model := "b", timeoutSecs := 90 } }
    load tree vars = .ok c ∧
      (∀ ls, layers tree vars = .ok ls → ∀ layer ∈ ls, GivesTables layer) ∧
      ∃ ls, layers tree vars = .ok ls ∧ ∀ s : Setting, match highest? s.path ls with
        | some v => s.read? v = some (s.get c)
        | none => s.get c = s.get {} := by
  intro file user project tree vars c
  have hload : load tree vars = .ok c := eq_ok_of_any (by decide +kernel)
  have htables : ∀ ls, layers tree vars = .ok ls → ∀ layer ∈ ls, GivesTables layer := by
    have hall : (layers tree vars).toOption.all
        fun ls => decide (∀ layer ∈ ls, GivesTables layer) := by decide +kernel
    intro ls hls
    rw [hls] at hall
    exact of_decide_eq_true hall
  obtain ⟨ls, hls, hget, -⟩ := load_settings hload htables
  exact ⟨hload, htables, ls, hls, hget⟩

end Config

end PolyLex
