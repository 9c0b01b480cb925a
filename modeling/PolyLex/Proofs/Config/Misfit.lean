import PolyLex.Config.Store
import PolyLex.Proofs.Config.Precedence

/-!
# Which setting is to blame

Layers that do not amount to a configuration hold a value that is of the wrong type for its setting,
and what is reported names such a setting and what is expected of it (`exists_mistyped`). So the
report is never about a setting that is in order, and nothing is refused without one
(`exists_of_misfit?`, `isSome_misfit?`).
-/

namespace PolyLex.Config

open Json (Value)
open Json.Value (at?)

namespace Setting

/-- What is expected of the setting, in words. -/
def expected : Setting → String
  | enabled => "a boolean"
  | timeoutSecs => "u64"
  | temperature => "f32"
  | outputDirectory => "path string"
  | version | provider | model | apiBase | apiKey | siteUrl | siteName | defaultLanguage => "a string"

/-- What is said of the setting if its value does not fit. -/
def problem (s : Setting) : ConfigProblem := .mistyped s.path s.expected

/-- Settings of any contents make up a configuration. -/
theorem exists_get (contents : (s : Setting) → s.Content) :
    ∃ c : Config, ∀ s : Setting, s.get c = contents s := by
  let remote : RemoteSettings := {
    enabled := contents .enabled, provider := contents .provider, model := contents .model,
    apiBase := contents .apiBase, timeoutSecs := contents .timeoutSecs,
    temperature := contents .temperature, apiKey := contents .apiKey, siteUrl := contents .siteUrl,
    siteName := contents .siteName }
  refine ⟨⟨contents .version, remote, ⟨contents .defaultLanguage⟩, ⟨contents .outputDirectory⟩⟩, ?_⟩
  intro s
  cases s <;> rfl

/-- A setting is to blame if something stands at its path that it cannot be. -/
theorem readOr_eq_none_iff {s : Setting} {v : Option Value} :
    s.readOr v = none ↔ ∃ w, v = some w ∧ s.read? w = none := by
  cases v with
  | none => simp [readOr, setting, Json.fieldOr]
  | some w => simp [readOr, setting, Json.fieldOr]

end Setting

/-! ### Searching records -/

/-- A value is reported just if it cannot be read. -/
theorem misfitValue_eq_some_iff {α : Type} {expected : String} {read : Value → Option α}
    {path : List String} {v : Value} {problem : ConfigProblem} :
    misfitValue expected read path v = some problem ↔
      read v = none ∧ .mistyped path expected = problem := by
  cases hread : read v <;> simp [misfitValue, hread]

section Record

variable {name : String} {fields : List (String × MisfitSearch)} {path : List String}
  {members : List (String × Value)} (hordered : Keyed.Ordered members)
include hordered

/-- What does not fit in a table is in one of its fields. -/
theorem exists_of_misfitRecord {problem : ConfigProblem}
    (h : misfitRecord name fields path (.obj members) = some problem) :
    ∃ key search v, (key, search) ∈ fields ∧ Keyed.find? key members = some v ∧
      search (path ++ [key]) v = some problem := by
  obtain ⟨⟨key, v⟩, hmem, hsearch⟩ := List.exists_of_findSome?_eq_some h
  obtain ⟨search, hfind, hsearch⟩ := Option.bind_eq_some_iff.mp hsearch
  exact ⟨key, search, v, Keyed.mem_of_find? hfind, Keyed.find?_of_mem hordered.nodup_keys hmem,
    hsearch⟩

omit hordered in
/-- What does not fit in a field is found. -/
theorem isSome_misfitRecord {key : String} {search : MisfitSearch} {v : Value}
    (hfield : Keyed.find? key fields = some search) (hfind : Keyed.find? key members = some v)
    (h : (search (path ++ [key]) v).isSome) :
    (misfitRecord name fields path (.obj members)).isSome := by
  rw [misfitRecord, List.findSome?_isSome_iff]
  exact ⟨(key, v), Keyed.mem_of_find? hfind, by simpa [hfield] using h⟩

end Record

/-! ### The setting to blame -/

variable {v : Value} (h : Sectioned v)
include h

/-- What is reported is said of a setting whose value does not fit. -/
theorem exists_of_misfit? {problem : ConfigProblem} (hmisfit : misfit? v = some problem) :
    ∃ s : Setting, problem = s.problem ∧ s.readOr (at? s.path v) = none := by
  obtain ⟨members, remote, analysis, results, rfl, hremote, hanalysis, hresults⟩ :=
    h.exists_members
  have hinner : ∀ {name inner}, Keyed.find? name members = some (.obj inner) →
      Keyed.Ordered inner := fun hfind => (h.tabled.of_find? hfind).ordered
  -- One case of the search for one setting: its reader failed on what stands at its path.
  have hblame : ∀ (s : Setting) {α : Type} {read : Value → Option α} {w : Value},
      at? s.path (.obj members) = some w → (read w = none → s.read? w = none) →
      misfitValue s.expected read s.path w = some problem →
      ∃ s : Setting, problem = s.problem ∧ s.readOr (at? s.path (.obj members)) = none := by
    intro s α read w hat hread hvalue
    obtain ⟨hnone, rfl⟩ := misfitValue_eq_some_iff.mp hvalue
    exact ⟨s, rfl, Setting.readOr_eq_none_iff.mpr ⟨w, hat, hread hnone⟩⟩
  obtain ⟨key, search, w, hfield, hfind, hsearch⟩ :=
    exists_of_misfitRecord h.tabled.ordered hmisfit
  simp only [List.mem_cons, Prod.mk.injEq, List.not_mem_nil, or_false] at hfield
  rcases hfield with ⟨rfl, rfl⟩ | ⟨rfl, rfl⟩ | ⟨rfl, rfl⟩ | ⟨rfl, rfl⟩
  · exact hblame .version ((at?_singleton _ _).trans hfind) id hsearch
  · obtain rfl := Option.some.inj (hfind.symm.trans hremote)
    obtain ⟨key, search, w, hfield, hfind, hsearch⟩ :=
      exists_of_misfitRecord (hinner hremote) hsearch
    have hat := (at?_section hremote key).trans hfind
    simp only [List.mem_cons, Prod.mk.injEq, List.not_mem_nil, or_false] at hfield
    rcases hfield with ⟨rfl, rfl⟩ | ⟨rfl, rfl⟩ | ⟨rfl, rfl⟩ | ⟨rfl, rfl⟩ | ⟨rfl, rfl⟩ | ⟨rfl, rfl⟩ |
      ⟨rfl, rfl⟩ | ⟨rfl, rfl⟩ | ⟨rfl, rfl⟩
    · exact hblame .enabled hat id hsearch
    · exact hblame .provider hat id hsearch
    · exact hblame .model hat id hsearch
    · exact hblame .apiBase hat id hsearch
    · exact hblame .timeoutSecs hat id hsearch
    · exact hblame .temperature hat id hsearch
    · exact hblame .apiKey hat id hsearch
    · exact hblame .siteUrl hat id hsearch
    · exact hblame .siteName hat id hsearch
  · obtain rfl := Option.some.inj (hfind.symm.trans hanalysis)
    obtain ⟨key, search, w, hfield, hfind, hsearch⟩ :=
      exists_of_misfitRecord (hinner hanalysis) hsearch
    obtain ⟨rfl, rfl⟩ := Prod.mk.inj (List.mem_singleton.mp hfield)
    exact hblame .defaultLanguage ((at?_section hanalysis _).trans hfind) id hsearch
  · obtain rfl := Option.some.inj (hfind.symm.trans hresults)
    obtain ⟨key, search, w, hfield, hfind, hsearch⟩ :=
      exists_of_misfitRecord (hinner hresults) hsearch
    obtain ⟨rfl, rfl⟩ := Prod.mk.inj (List.mem_singleton.mp hfield)
    exact hblame .outputDirectory ((at?_section hresults _).trans hfind) id hsearch

/-- A value that does not fit does not go unnoticed. -/
theorem isSome_misfit? {s : Setting} (hs : s.readOr (at? s.path v) = none) :
    (misfit? v).isSome := by
  obtain ⟨members, remote, analysis, results, rfl, hremote, hanalysis, hresults⟩ :=
    h.exists_members
  obtain ⟨w, hat, hread⟩ := Setting.readOr_eq_none_iff.mp hs
  have hvalue : ∀ {α : Type} {read : Value → Option α} {expected : String} {path : List String},
      read w = none → (misfitValue expected read path w).isSome :=
    fun hnone => Option.isSome_of_eq_some (misfitValue_eq_some_iff.mpr ⟨hnone, rfl⟩)
  cases s with
  | version => exact isSome_misfitRecord rfl ((at?_singleton _ _).symm.trans hat) (hvalue hread)
  | defaultLanguage =>
    refine isSome_misfitRecord rfl hanalysis ?_
    exact isSome_misfitRecord rfl ((at?_section hanalysis _).symm.trans hat) (hvalue hread)
  | outputDirectory =>
    refine isSome_misfitRecord rfl hresults ?_
    exact isSome_misfitRecord rfl ((at?_section hresults _).symm.trans hat) (hvalue hread)
  | _ =>
    refine isSome_misfitRecord rfl hremote ?_
    exact isSome_misfitRecord rfl ((at?_section hremote _).symm.trans hat) (hvalue hread)

omit h in
/-- Layers that do not amount to a configuration give a setting a value that does not fit, and this
is what is said of them. -/
theorem exists_mistyped {layers : List Value} (h : ∀ layer ∈ layers, Layered layer)
    (hnone : ofLayers? layers = none) : ∃ (s : Setting) (w : Value),
      highest? s.path layers = some w ∧ s.read? w = none ∧ misfit layers = s.problem := by
  have hsectioned := sectioned_foldl_overlay sectioned_defaults h
  have hblamed : ∃ s : Setting, s.readOr (at? s.path (layers.foldl overlay defaults)) = none := by
    -- If every setting could be read, they would make up a configuration.
    by_contra hall
    have hread : ∀ s : Setting, ∃ content,
        s.readOr (at? s.path (layers.foldl overlay defaults)) = some content :=
      fun s => Option.ne_none_iff_exists'.mp fun hs => hall ⟨s, hs⟩
    choose contents hcontents using hread
    obtain ⟨c, hc⟩ := Setting.exists_get contents
    have hsome : ofLayers? layers = some c :=
      (ofValue?_eq_some_iff hsectioned).mpr fun s => by rw [hcontents, hc]
    rw [hnone] at hsome
    cases hsome
  obtain ⟨s, hs⟩ := hblamed
  obtain ⟨problem, hmisfit⟩ := Option.isSome_iff_exists.mp (isSome_misfit? hsectioned hs)
  obtain ⟨s, rfl, hs⟩ := exists_of_misfit? hsectioned hmisfit
  rw [readOr_foldl_overlay sectioned_defaults.tabled h] at hs
  -- A setting that no layer gives has its default, which fits.
  cases hhigh : highest? s.path layers with
  | none =>
    rw [hhigh, readOr_defaults] at hs
    cases hs
  | some w =>
    rw [hhigh] at hs
    exact ⟨s, w, hhigh, hs, by rw [misfit, hmisfit]; rfl⟩

end PolyLex.Config
