import PolyLex.Proofs.Config.Precedence
import PolyLex.Proofs.Config.Signed
import PolyLex.Proofs.Json.Numeral
import PolyLex.Proofs.Toml.Document
import PolyLex.Url.Domain

/-!
# Configurations that are shown

A configuration is shown as a document in one of two formats, and never with the key. Both documents
read as tables that hold each other setting (`at?_path_shownLayer`, `ofValue?_shownValue`), whatever
characters its texts have. So what a file amounts to can be shown and read again (`loadFile_shown`).

How a floating number is printed is not looked into here: that the temperature reads back from its
digits is a hypothesis (`PrintsExactly`), which can be evaluated.
-/

namespace PolyLex.Config

open Json (Value)
open Json.Value (at? LeadsThrough Tabled)
open Numeric Files

/-- The configuration without the key for the remote service. -/
def withoutKey (c : Config) : Config := { c with remote := { c.remote with apiKey := none } }

/-! ### As a TOML document -/

/-- The members of a configuration. -/
def members (c : Config) : List (String × Value) := c.toJson.members?.getD []

/-- A plain value with `w` in the place of a floating number. -/
def readWith (w : Value) : Value → Value
  | .real _ _ => w
  | v => v

/-- The settings of the remote service but the key, with `w` in the place of the temperature. -/
def remoteMembers (r : RemoteSettings) (w : Value) : List (String × Value) := [
  ("enabled", .bool r.enabled),
  ("provider", .str r.provider),
  ("model", .str r.model),
  ("api_base", .str r.apiBase),
  ("timeout_secs", .nat r.timeoutSecs),
  ("temperature", w),
  ("site_url", .str r.siteUrl),
  ("site_name", .str r.siteName)]

/-- A configuration has keys without quotes and values that read back. -/
theorem writable_members {c : Config} {w : Value}
    (htimeout : c.remote.timeoutSecs < 0x8000000000000000)
    (hreal : Toml.ReadsAs (.real .single c.remote.temperature) w) :
    Toml.WritableDocument (readWith w) c.members := by
  have hstr := Toml.readsAs_str
  -- A table has no place among plain entries; it gets a header of its own.
  have htable : ∀ {inner : List (String × Value)} {v : Value},
      (Toml.plainChars? (.obj inner)).isSome → Toml.ReadsAs (.obj inner) v := by
    intro inner v h
    cases h
  have hremote : Toml.Writable (readWith w)
      (remoteMembers c.remote (.real .single c.remote.temperature)) := by
    simp only [remoteMembers]
    refine ⟨by simp, by simp only [List.forall_mem_cons]; decide, ?_⟩
    simp only [List.forall_mem_cons]
    exact ⟨fun _ => Toml.readsAs_bool _, fun _ => hstr _, fun _ => hstr _, fun _ => hstr _,
      fun _ => Toml.readsAs_nat htimeout, fun _ => hreal, fun _ => hstr _, fun _ => hstr _, by simp⟩
  have hanalysis : Toml.Writable (readWith w)
      [("default_language", .strOrNull c.analysis.defaultLanguage)] := by
    refine ⟨by simp, by simp only [List.forall_mem_cons]; decide, ?_⟩
    rw [List.forall_mem_singleton]
    cases c.analysis.defaultLanguage with
    | none =>
      intro h
      cases h
    | some name => exact fun _ => hstr name
  have hresults : Toml.Writable (readWith w) [("output_dir", .str c.results.outputDirectory)] := by
    refine ⟨by simp, by simp only [List.forall_mem_cons]; decide, ?_⟩
    exact List.forall_mem_singleton.mpr fun _ => hstr _
  have hinner : ∀ {inner : List (String × Value)}, Toml.Writable (readWith w) inner →
      ∀ ms ∈ some inner, Toml.Writable (readWith w) ms := by
    intro inner h ms hms
    cases hms
    exact h
  -- The top level: distinct names, plain values that read back, and three tables of the same kind.
  refine ⟨⟨by simp [members, toJson, Value.members?], ?_, ?_⟩, ?_⟩
  · simp only [members, toJson, Value.members?, Option.getD_some, List.forall_mem_cons]
    decide
  · simp only [members, toJson, Value.members?, Option.getD_some, List.forall_mem_cons]
    exact ⟨fun _ => hstr _, htable, htable, htable, by simp⟩
  · simp only [members, toJson, Value.members?, Option.getD_some, List.forall_mem_cons]
    exact ⟨by simp, hinner hremote, hinner hanalysis, hinner hresults, by simp⟩

/-- The only number that may be out of range is the bound on a call. -/
theorem all_inRange (c : Config) : ((c.members ++ c.members.flatMap fun m => m.2.members?.getD []).all
    fun m => Toml.inRange m.2) = decide (c.remote.timeoutSecs < 0x8000000000000000) := by
  have htimeout : Toml.inRange (.nat c.remote.timeoutSecs) =
      decide (c.remote.timeoutSecs < 0x8000000000000000) := by
    rw [Bool.eq_iff_iff]
    simp only [Toml.inRange, Value.nat, Bool.and_eq_true, decide_eq_true_eq]
    omega
  have hstr : ∀ s, Toml.inRange (.str s) = true := fun _ => rfl
  have hbool : ∀ b, Toml.inRange (.bool b) = true := fun _ => rfl
  have hreal : ∀ p x, Toml.inRange (.real p x) = true := fun _ _ => rfl
  have htable : ∀ inner, Toml.inRange (.obj inner) = true := fun _ => rfl
  have hlanguage : Toml.inRange (.strOrNull c.analysis.defaultLanguage) = true := by
    cases c.analysis.defaultLanguage with
    | none => rfl
    | some name => exact hstr name
  simp [members, toJson, Value.members?, hstr, hbool, hreal, htable, hlanguage, htimeout]

/-- There is a document just if the bound on a call is a number that it can hold. -/
theorem tomlDocument_eq (c : Config) : c.tomlDocument =
    if c.remote.timeoutSecs < 0x8000000000000000 then .ok (Toml.document c.members)
    else .error .outOfRange := by
  have hdocument : ∀ found, Toml.document? c.members = found →
      c.tomlDocument = found.elim (.error .outOfRange) .ok := by
    rintro found rfl
    rfl
  by_cases h : c.remote.timeoutSecs < 0x8000000000000000
  · rw [if_pos h]
    exact hdocument _ (Toml.document?_of_all ((all_inRange c).trans (decide_eq_true h)))
  · rw [if_neg h]
    have hall := (all_inRange c).trans (decide_eq_false h)
    exact hdocument _ (Toml.document?_of_not_all hall)

/-- What a document of a configuration holds. -/
theorem shown_members (c : Config) (w : Value) : Toml.shown (readWith w) c.members =
    [("version", .str c.version),
     ("remote", .obj (Keyed.ofList (remoteMembers c.remote w))),
     ("analysis", .obj (Keyed.ofList (c.analysis.defaultLanguage.toList.map fun name =>
        ("default_language", .str name)))),
     ("export", .obj (Keyed.ofList [("output_dir", .str c.results.outputDirectory)]))] := by
  obtain ⟨version, remote, ⟨language⟩, results⟩ := c
  cases language <;> rfl

/-- The layer that the document of a configuration is. -/
def shownLayer (c : Config) (w : Value) : Value :=
  .obj (Keyed.ofList (Toml.shown (readWith w) c.members))

theorem at?_shownLayer (c : Config) (w : Value) (name : String) :
    at? [name] (c.shownLayer w) = Keyed.find? name (Toml.shown (readWith w) c.members) := by
  rw [shownLayer, at?_singleton, Keyed.find?_ofList]
  rw [shown_members]
  show ["version", "remote", "analysis", "export"].Nodup
  decide

/-- Under a section that is made of distinct names, each name leads to its value. -/
theorem at?_inner {layer : Value} {name : String} {inner : List (String × Value)}
    (h : at? [name] layer = some (.obj (Keyed.ofList inner))) (hinner : (inner.map Prod.fst).Nodup)
    (key : String) : at? [name, key] layer = Keyed.find? key inner := by
  obtain ⟨members, hmembers, hfind⟩ : ∃ members, layer.members? = some members ∧
      Keyed.find? name members = some (.obj (Keyed.ofList inner)) := by
    simpa [at?, Option.bind_eq_some_iff] using h
  rw [at?, hmembers, Option.bind_some, hfind, Option.bind_some, at?_singleton,
    Keyed.find?_ofList hinner]

/-- The settings of the remote service are in the layer, all but the key. -/
theorem at?_remote_shownLayer (c : Config) (w : Value) (key : String) :
    at? ["remote", key] (c.shownLayer w) = Keyed.find? key (remoteMembers c.remote w) := by
  refine at?_inner ?_ (by simp [remoteMembers]) key
  rw [at?_shownLayer, shown_members]
  rfl

/-- Each setting but the key stands in the document. -/
theorem at?_path_shownLayer (c : Config) {w : Value} (hw : single? w = some c.remote.temperature)
    (s : Setting) :
    match at? s.path (c.shownLayer w) with
    | some v => s.read? v = some (s.get c.withoutKey)
    | none => s.get c.withoutKey = s.get {} := by
  have hversion : at? ["version"] (c.shownLayer w) = some (.str c.version) := by
    rw [at?_shownLayer, shown_members]
    rfl
  have hanalysis : ∀ key, at? ["analysis", key] (c.shownLayer w) =
      Keyed.find? key (c.analysis.defaultLanguage.toList.map fun name =>
        ("default_language", .str name)) := by
    refine at?_inner ?_ (by cases c.analysis.defaultLanguage <;> simp)
    rw [at?_shownLayer, shown_members]
    rfl
  have hresults : ∀ key, at? ["export", key] (c.shownLayer w) =
      Keyed.find? key [("output_dir", .str c.results.outputDirectory)] := by
    refine at?_inner ?_ (by simp)
    rw [at?_shownLayer, shown_members]
    rfl
  cases s <;> simp only [Setting.path, hversion, at?_remote_shownLayer, hanalysis, hresults]
  case temperature => exact hw
  -- The one setting besides the key that a document may leave out.
  case defaultLanguage =>
    obtain ⟨_, _, ⟨language⟩, _⟩ := c
    cases language <;> rfl
  all_goals rfl

theorem givesTables_shownLayer (c : Config) (w : Value) : GivesTables (c.shownLayer w) := by
  intro name hname
  rw [at?_shownLayer, shown_members]
  simp only [sectionNames, List.mem_cons, List.not_mem_nil, or_false] at hname
  rcases hname with rfl | rfl | rfl <;> rfl

/-! ### As a JSON document -/

/-- The value with `w` in the place of the floating numbers in it. -/
def readWithin (w : Value) : Value → Value
  | .obj inner => .obj (inner.map fun m => (m.1, readWith w m.2))
  | v => v

/-- What a JSON document of a configuration holds. -/
def shownValue (c : Config) (w : Value) : Value :=
  .obj (c.members.map fun m => (m.1, readWithin w m.2))

/-- A document has braces at least, so that a reader may go one step down. -/
theorem length_jsonDocument (c : Config) : 2 ≤ c.jsonDocument.length := by
  have hlen : c.jsonDocument.length = (c.toJson.prettyAt 0).length := String.length_ofList
  rw [hlen]
  simp only [toJson, Value.prettyAt, Value.newLine, List.length_append, List.length_cons]
  omega

/-- The JSON document reads as what is shown. -/
theorem readRecord_jsonDocument {c : Config} {w : Value}
    (htimeout : c.remote.timeoutSecs < 0x10000000000000000)
    (hreal : ∀ depth level, Json.ReadsAs (Json.readValue false depth) level
      (.real .single c.remote.temperature) w) :
    Json.readRecord c.jsonDocument = .ok (c.shownValue w) := by
  -- The reader has one level of depth for each character, which is more than the two it needs.
  obtain ⟨depth, hdepth⟩ := Nat.exists_eq_add_of_le' c.length_jsonDocument
  -- All values but the temperature are plain, and read back as they are.
  have hplain : ∀ {v : Value} {depth level : Nat}, v.Plain 0 →
      Json.ReadsAs (Json.readValue false depth) level v v := fun hv =>
    Json.readsBack_prettyAt false hv (Nat.zero_le _) _
  have hremote : Json.ReadsAs (Json.readValue false (depth + 1)) 1
      (.obj (remoteMembers c.remote (.real .single c.remote.temperature)))
      (readWithin w (.obj (remoteMembers c.remote (.real .single c.remote.temperature)))) := by
    apply Json.readsAs_obj
    simp only [remoteMembers, List.forall_mem_cons]
    exact ⟨hplain (.bool _), hplain (.str _), hplain (.str _), hplain (.str _),
      hplain (.int (by omega) (by omega)), hreal _ _, hplain (.str _), hplain (.str _), by simp⟩
  have hanalysis : Json.ReadsAs (Json.readValue false (depth + 1)) 1
      (.obj [("default_language", .strOrNull c.analysis.defaultLanguage)])
      (readWithin w (.obj [("default_language", .strOrNull c.analysis.defaultLanguage)])) := by
    apply Json.readsAs_obj
    rw [List.forall_mem_singleton]
    cases c.analysis.defaultLanguage with
    | none => exact hplain .null
    | some name => exact hplain (.str name)
  have hresults : Json.ReadsAs (Json.readValue false (depth + 1)) 1
      (.obj [("output_dir", .str c.results.outputDirectory)])
      (readWithin w (.obj [("output_dir", .str c.results.outputDirectory)])) := by
    apply Json.readsAs_obj
    exact List.forall_mem_singleton.mpr (hplain (.str _))
  have hall : Json.ReadsAs (Json.readValue false (depth + 2)) 0 c.toJson (c.shownValue w) := by
    apply Json.readsAs_obj
    simp only [List.forall_mem_cons]
    exact ⟨hplain (.str _), hremote, hanalysis, hresults, by simp⟩
  have hread := hall [] [] (by simp) (Text.avoids_nil _)
  rw [List.nil_append, List.append_nil] at hread
  rw [Json.readRecord, hdepth]
  refine Json.readDocument_eq_ok_iff.mpr ⟨[], ?_, rfl⟩
  rw [jsonDocument, Value.pretty, String.toList_ofList]
  exact hread

/-- What is shown amounts to the configuration, without the key. -/
theorem ofValue?_shownValue {c : Config} {w : Value} (hw : single? w = some c.remote.temperature) :
    ofValue? Json.record? (c.shownValue w) = some c.withoutKey := by
  have hremote : remote? Json.record? (.obj (remoteMembers c.remote w)) =
      some { c.remote with apiKey := none } := by
    -- The fields in their order, and none for the key.
    have hrecord : Json.record? ["enabled", "provider", "model", "api_base", "timeout_secs",
        "temperature", "api_key", "site_url", "site_name"] (.obj (remoteMembers c.remote w)) =
        some [some (.bool c.remote.enabled), some (.str c.remote.provider),
          some (.str c.remote.model), some (.str c.remote.apiBase),
          some (.nat c.remote.timeoutSecs), some w, none, some (.str c.remote.siteUrl),
          some (.str c.remote.siteName)] := rfl
    rw [remote?, hrecord]
    simp only [Option.bind_eq_bind, Option.bind_some, setting, Json.fieldOr, hw]
    rfl
  have hanalysis : analysis? Json.record?
      (.obj [("default_language", .strOrNull c.analysis.defaultLanguage)]) = some c.analysis := by
    obtain ⟨_, _, ⟨language⟩, _⟩ := c
    cases language <;> rfl
  have hrecord : Json.record? ["version", "remote", "analysis", "export"] (c.shownValue w) =
      some [some (.str c.version), some (.obj (remoteMembers c.remote w)),
        some (.obj [("default_language", .strOrNull c.analysis.defaultLanguage)]),
        some (.obj [("output_dir", .str c.results.outputDirectory)])] := by
    obtain ⟨_, _, ⟨language⟩, _⟩ := c
    cases language <;> rfl
  rw [ofValue?, hrecord]
  simp only [Option.bind_eq_bind, Option.bind_some, setting, Json.fieldOr, hremote, hanalysis]
  rfl

/-! ### Back again -/

/-- A number of single precision reads back from what is printed of it, in either document. -/
def PrintsExactly (t : Binary) : Prop :=
  (Toml.word? (Toml.numberLayout.write .single t).toList).bind single? = some t ∧
  (Json.parse ((Json.numberLayout .single).write .single t)).toOption.bind single? = some t

instance (t : Binary) : Decidable (PrintsExactly t) := instDecidableAnd

theorem PrintsExactly.exists_word {t : Binary} (h : PrintsExactly t) :
    ∃ w, Toml.word? (Toml.numberLayout.write .single t).toList = some w ∧ single? w = some t :=
  Option.bind_eq_some_iff.mp h.1

theorem PrintsExactly.exists_number {t : Binary} (h : PrintsExactly t) :
    ∃ w, Json.parse ((Json.numberLayout .single).write .single t) = .ok w ∧ single? w = some t := by
  obtain ⟨w, hw, hsingle⟩ := Option.bind_eq_some_iff.mp h.2
  cases hparse : Json.parse ((Json.numberLayout .single).write .single t) with
  | error fault =>
    rw [hparse] at hw
    cases hw
  | ok v =>
    rw [hparse] at hw
    cases hw
    exact ⟨w, rfl, hsingle⟩

/-- A temperature that is in range is a number. -/
theorem numeral_temperature [Url.DomainNames] {c : Config} (h : c.validate = .ok ()) (layout : Layout) :
    Numeral (layout.write .single c.remote.temperature) := by
  have hrange : c.remote.temperature.inUnitRange temperatureLimit = true := by
    cases hin : c.remote.temperature.inUnitRange temperatureLimit with
    | true => rfl
    | false =>
      simp only [validate, checkRemote, hin] at h
      cases h
  cases ht : c.remote.temperature with
  | finite negative m e => exact layout.numeral_write .single negative m e
  | _ =>
    rw [ht] at hrange
    cases hrange

/-- The document of a configuration that meets all demands amounts to it, without the key. -/
theorem check_shownLayer [Url.DomainNames] {c : Config} {w : Value}
    (hvalid : c.validate = .ok ())
    (htabled : (c.shownLayer w).Tabled) (hw : single? w = some c.remote.temperature) :
    check [c.shownLayer w] = .ok c.withoutKey := by
  have hlayered : Layered (c.shownLayer w) := ⟨htabled, ⟨_, rfl⟩, givesTables_shownLayer c w⟩
  refine check_eq_ok_iff.mpr ⟨?_, hvalid⟩
  refine (ofLayers?_eq_some_iff (List.forall_mem_singleton.mpr hlayered)).mpr fun s => ?_
  have hhighest : highest? s.path [c.shownLayer w] = at? s.path (c.shownLayer w) := by
    simp [highest?]
  rw [hhighest]
  exact at?_path_shownLayer c hw s

/-- A bound on a call that was read from a file is a number that a file can hold. -/
theorem timeoutSecs_lt_of_loadFile [Url.DomainNames] {tree : Tree} {path : String} {c : Config}
    (h : loadFile tree path = .ok c) : c.remote.timeoutSecs < 0x8000000000000000 := by
  obtain ⟨layer, hlayer, hcheck⟩ := loadFile_eq_ok_iff.mp h
  exact ofValue?_timeoutSecs_lt (signed_overlay signed_defaults (signed_fileLayer hlayer))
    (check_eq_ok_iff.mp hcheck).1

/-- A configuration that comes from a file can be shown and read again. Its bound on a call is a
number that a document can hold, so that it has a TOML document, which reads as a table that names
no key. From any file with that document the same configuration is loaded, without the key; from its
JSON document it is read. Neither depends on the key. -/
theorem loadFile_shown [Url.DomainNames] {tree : Tree} {path : String} {c : Config}
    (hload : loadFile tree path = .ok c) (hprint : PrintsExactly c.remote.temperature) :
    c.remote.timeoutSecs < 0x8000000000000000 ∧
    (∃ text, c.tomlDocument = .ok text ∧
      (∃ shown, Toml.parse? text = some shown ∧ at? ["remote", "api_key"] (.obj shown) = none) ∧
      ∀ (tree' : Tree) (path' : String), tree'.find? path' = some (.text text) →
        loadFile tree' path' = .ok c.withoutKey) ∧
    ofDocument c.jsonDocument = .ok c.withoutKey ∧
    ∀ key : Option String,
      tomlDocument { c with remote := { c.remote with apiKey := key } } = c.tomlDocument ∧
      jsonDocument { c with remote := { c.remote with apiKey := key } } = c.jsonDocument := by
  obtain ⟨_, -, hcheck⟩ := loadFile_eq_ok_iff.mp hload
  have hvalid := (check_eq_ok_iff.mp hcheck).2
  have htimeout := timeoutSecs_lt_of_loadFile hload
  obtain ⟨w, hword, hw⟩ := hprint.exists_word
  obtain ⟨v, hnumber, hv⟩ := hprint.exists_number
  -- What is read back for the temperature is a value in double precision, which the setting reads
  -- as the number that was written.
  have hreal : Toml.ReadsAs (.real .single c.remote.temperature) w :=
    Toml.readsAs_real (numeral_temperature hvalid _) hword
  have hparse : Toml.parse? (Toml.document c.members) =
      some (Keyed.ofList (Toml.shown (readWith w) c.members)) :=
    Toml.parse?_document (writable_members htimeout hreal)
  have htabled : (c.shownLayer w).Tabled := Toml.tabled_parse? hparse
  have hshown : c.tomlDocument = .ok (Toml.document c.members) := by
    rw [tomlDocument_eq, if_pos htimeout]
  refine ⟨htimeout, ⟨_, hshown, ⟨_, hparse, ?_⟩, fun tree' path' hfind => ?_⟩, ?_,
    fun key => ⟨?_, rfl⟩⟩
  · exact at?_remote_shownLayer c w "api_key"
  -- Any file with the text of the document has the same layer, whatever its place.
  · have hlayer : fileLayer tree' path' = .ok (c.shownLayer w) :=
      fileLayer_eq_ok_iff.mpr (.inr ⟨_, _, hfind, hparse, rfl⟩)
    exact loadFile_eq_ok_iff.mpr ⟨_, hlayer, check_shownLayer hvalid htabled hw⟩
  · have hjson := readRecord_jsonDocument (Nat.lt_trans htimeout (by decide)) fun depth level =>
      Json.readsAs_real (numeral_temperature hvalid _) hnumber false depth level
    rw [ofDocument, readJson, hjson]
    simp only [ofValue?_shownValue hv]
  -- The key is left out of what is written, so both documents are of the same members.
  · rw [tomlDocument_eq, tomlDocument_eq, if_pos htimeout, if_pos htimeout]
    rfl

/-- A file with a key, a text that has to be escaped, a whole number at the limit and a number that
is no binary fraction. -/
theorem loadFile_shown_escaped :
    let file := "version = \"\\u0001'''\\\"\\n\"\n[remote]\ntimeout_secs = 9223372036854775807\n" ++
      "temperature = 0.7\napi_key = \"secret\"\nsite_url = \"\"\n"
    let tree : Tree := ⟨.directory [("c.toml", .file (.text file))], []⟩
    let c : Config := {
      version := "\x01'''\"\n"
      remote := {
        timeoutSecs := 9223372036854775807
        temperature := .finite false 11744051 (-24)
        apiKey := "secret"
        siteUrl := "" } }
    loadFile tree "c.toml" = .ok c ∧ PrintsExactly c.remote.temperature ∧
      (∃ text, c.tomlDocument = .ok text ∧
        loadFile ⟨.directory [("shown.toml", .file (.text text))], []⟩ "shown.toml" =
          .ok c.withoutKey) ∧
      ofDocument c.jsonDocument = .ok c.withoutKey := by
  intro file tree c
  have hload : loadFile tree "c.toml" = .ok c := eq_ok_of_any (by decide +kernel)
  have hprint : PrintsExactly c.remote.temperature := by decide +kernel
  obtain ⟨-, ⟨text, htext, -, hagain⟩, hjson, -⟩ := loadFile_shown hload hprint
  exact ⟨hload, hprint, ⟨text, htext, hagain _ _ rfl⟩, hjson⟩

end PolyLex.Config
