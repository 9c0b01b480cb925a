import PolyLex.Config.Store
import PolyLex.Proofs.Config.Overlay

/-!
# What the template says

The template says what the defaults say: the settings that it gives have their defaults
(`parse?_template`), but for the form of a zero, which is a number of double precision there.
Readers of settings do not tell zeros apart (`ofValue?_plainZeros`), and overlays keep them where
they are (`plainZeros_overlay`). So it does not matter whether the template is among the lower
layers, whatever lies over them, and be it something that makes no configuration at all
(`check_isDefault`).
-/

namespace PolyLex

namespace Json.Value

open Numeric

/-! ### Comparing values -/

mutual
/-- Are the values the same? -/
def same : Value → Value → Bool
  | null, null => true
  | bool a, bool b => a == b
  | int m, int n => m == n
  | real p x, real q y => p == q && x == y
  | str s, str t => s == t
  | arr items, arr others => sameItems items others
  | obj members, obj others => sameMembers members others
  | unfit, unfit => true
  | _, _ => false
def sameItems : List Value → List Value → Bool
  | [], [] => true
  | v :: items, w :: others => same v w && sameItems items others
  | _, _ => false
def sameMembers : List (String × Value) → List (String × Value) → Bool
  | [], [] => true
  | (name, v) :: members, (other, w) :: others =>
    name == other && same v w && sameMembers members others
  | _, _ => false
end

mutual
/-- What is found to be the same is the same. -/
theorem eq_of_same : ∀ {v w : Value}, same v w = true → v = w
  | null, w, h | bool _, w, h | int _, w, h | real _ _, w, h | str _, w, h | unfit, w, h => by
    cases w <;> simp_all [same]
  | arr items, w, h => by
    cases w with
    | arr others => rw [eq_of_sameItems h]
    | _ => simp [same] at h
  | obj members, w, h => by
    cases w with
    | obj others => rw [eq_of_sameMembers h]
    | _ => simp [same] at h
theorem eq_of_sameItems : ∀ {items others : List Value}, sameItems items others = true →
    items = others
  | [], [], _ => rfl
  | v :: items, w :: others, h => by
    rw [sameItems, Bool.and_eq_true] at h
    rw [eq_of_same h.1, eq_of_sameItems h.2]
theorem eq_of_sameMembers : ∀ {members others : List (String × Value)},
    sameMembers members others = true → members = others
  | [], [], _ => rfl
  | (name, v) :: members, (other, w) :: others, h => by
    simp only [sameMembers, Bool.and_eq_true, beq_iff_eq] at h
    rw [h.1.1, eq_of_same h.1.2, eq_of_sameMembers h.2]
end

/-! ### Zeros -/

mutual
/-- The value with one form for all numbers that are zero in single precision. -/
def plainZeros : Value → Value
  | real p x =>
    if x.convert .single = .zero .single false then real .single (.zero .single false) else real p x
  | arr items => arr (plainZerosItems items)
  | obj members => obj (plainZerosMembers members)
  | null => null
  | bool b => bool b
  | int n => int n
  | str s => str s
  | unfit => unfit
def plainZerosItems : List Value → List Value
  | [] => []
  | v :: rest => plainZeros v :: plainZerosItems rest
def plainZerosMembers : List (String × Value) → List (String × Value)
  | [] => []
  | (name, v) :: rest => (name, plainZeros v) :: plainZerosMembers rest
end

/-- In a list, zeros are changed item by item. -/
theorem plainZerosItems_eq (items : List Value) : plainZerosItems items = items.map plainZeros := by
  induction items with
  | nil => rfl
  | cons v items ih => rw [plainZerosItems, ih, List.map_cons]

/-- In a table, zeros are changed value by value. -/
theorem plainZerosMembers_eq (members : List (String × Value)) :
    plainZerosMembers members = members.map fun m => (m.1, m.2.plainZeros) := by
  induction members with
  | nil => rfl
  | cons m members ih =>
    obtain ⟨name, v⟩ := m
    rw [plainZerosMembers, ih, List.map_cons]

/-- A number has one of two forms. -/
theorem plainZeros_real (p : Precision) (x : Binary) : (real p x).plainZeros = real p x ∨
    x.convert .single = .zero .single false ∧
      (real p x).plainZeros = real .single (.zero .single false) := by
  rw [plainZeros]
  split
  · next hzero => exact .inr ⟨hzero, rfl⟩
  · exact .inl rfl

theorem members?_plainZeros (v : Value) :
    v.plainZeros.members? = v.members?.map plainZerosMembers := by
  cases v with
  | real p x => rcases plainZeros_real p x with h | ⟨-, h⟩ <;> rw [h] <;> rfl
  | _ => rfl

end Json.Value

namespace Config

open Json (Value)
open Json.Value (plainZeros_real plainZerosItems_eq plainZerosMembers_eq members?_plainZeros)
open Numeric

/-! ### Overlays -/

mutual
/-- It does not matter whether zeros are changed before or after an overlay. -/
theorem plainZeros_overlay (below : Value) : ∀ v : Value,
    (overlay below v).plainZeros = overlay below.plainZeros v.plainZeros
  | .obj members => by
    rw [overlay_obj, Value.plainZeros, Value.plainZeros, overlay_obj, members?_plainZeros]
    rw [plainZerosMembers_overlay]
    cases below.members? <;> rfl
  | .real p x => by
    show (Value.real p x).plainZeros = overlay below.plainZeros (Value.real p x).plainZeros
    rcases plainZeros_real p x with h | ⟨-, h⟩ <;> rw [h] <;> rfl
  | .null | .bool _ | .int _ | .str _ | .arr _ | .unfit => by
    rfl
theorem plainZerosMembers_overlay (entries : List (String × Value)) :
    ∀ members : List (String × Value), Value.plainZerosMembers (overlayMembers entries members) =
      overlayMembers (Value.plainZerosMembers entries) (Value.plainZerosMembers members)
  | [] => rfl
  | (key, v) :: rest => by
    rw [overlayMembers, plainZerosMembers_overlay _ rest, Value.plainZerosMembers, overlayMembers]
    congr 1
    rw [plainZerosMembers_eq, plainZerosMembers_eq]
    refine Keyed.map_update key (fun old => ?_) entries
    rw [plainZeros_overlay _ v]
    cases old <;> rfl
end

/-! ### Readers -/

/-- A number of single precision is the same zero in either form. -/
theorem single?_plainZeros (v : Value) : single? v.plainZeros = single? v := by
  cases v with
  | real p x =>
    rcases plainZeros_real p x with h | ⟨hzero, h⟩
    · rw [h]
    · have hsame : (Binary.zero .single false).convert .single = .zero .single false := by decide
      rw [h, single?, single?, hzero, hsame]
  | _ => rfl

/-- A reader that takes neither a floating number nor a list nor a table does not see zeros. -/
theorem read_plainZeros {α : Type} {read : Value → Option α} (hreal : ∀ p x, read (.real p x) = none)
    (harr : ∀ items, read (.arr items) = none) (hobj : ∀ members, read (.obj members) = none)
    (v : Value) : read v.plainZeros = read v := by
  cases v with
  | real p x =>
    rcases plainZeros_real p x with h | ⟨-, h⟩
    · rw [h]
    · rw [h, hreal, hreal]
  | arr items => rw [Value.plainZeros, harr, harr]
  | obj members => rw [Value.plainZeros, hobj, hobj]
  | _ => rfl

theorem str?_plainZeros (v : Value) : Json.str? v.plainZeros = Json.str? v :=
  read_plainZeros (fun _ _ => rfl) (fun _ => rfl) (fun _ => rfl) v

theorem bool?_plainZeros (v : Value) : Json.bool? v.plainZeros = Json.bool? v :=
  read_plainZeros (fun _ _ => rfl) (fun _ => rfl) (fun _ => rfl) v

theorem nat?_plainZeros (v : Value) : v.plainZeros.nat? = v.nat? :=
  read_plainZeros (fun _ _ => rfl) (fun _ => rfl) (fun _ => rfl) v

theorem nullable?_plainZeros (v : Value) :
    Json.nullable? Json.str? v.plainZeros = Json.nullable? Json.str? v :=
  read_plainZeros (fun _ _ => rfl) (fun _ => rfl) (fun _ => rfl) v

theorem field?_plainZeros (members : List (String × Value)) (name : String) :
    Json.field? (Value.plainZerosMembers members) name =
      (Json.field? members name).map (Option.map Value.plainZeros) := by
  have hfilter : (Value.plainZerosMembers members).filter (fun m => m.1 == name) =
      (members.filter fun m => m.1 == name).map fun m => (m.1, m.2.plainZeros) := by
    rw [plainZerosMembers_eq, List.filter_map]
    rfl
  rw [Json.field?, Json.field?, hfilter]
  cases members.filter fun m => m.1 == name with
  | nil => rfl
  | cons m more => cases more <;> rfl

/-- The fields of a record are the same but for the form of zeros. -/
theorem layerRecord?_plainZeros (names : List String) (v : Value) :
    layerRecord? names v.plainZeros =
      (layerRecord? names v).map (List.map (Option.map Value.plainZeros)) := by
  cases v with
  | real p x => rcases plainZeros_real p x with h | ⟨-, h⟩ <;> rw [h] <;> rfl
  | arr items =>
    have hlen : (items.take names.length).length ≤ names.length := List.length_take_le ..
    rw [Value.plainZeros, plainZerosItems_eq, layerRecord?, layerRecord?, ← List.map_take,
      Json.record?, Json.record?, List.length_map, if_pos hlen, if_pos hlen]
    simp [Function.comp_def]
  | obj members =>
    show names.mapM (Json.field? (Value.plainZerosMembers members)) =
      (names.mapM (Json.field? members)).map _
    induction names with
    | nil => rfl
    | cons name names ih =>
      rw [List.mapM_cons, List.mapM_cons, field?_plainZeros, ih]
      cases Json.field? members name with
      | none => rfl
      | some field => cases names.mapM (Json.field? members) <;> rfl
  | _ => rfl

/-- A field that may be absent is read the same. -/
theorem setting_plainZeros {α : Type} (default : α) {read : Value → Option α}
    (h : ∀ v, read v.plainZeros = read v) (field : Option Value) :
    setting default read (field.map Value.plainZeros) = setting default read field := by
  cases field with
  | none => rfl
  | some v => exact h v

/-- The settings of the remote service do not depend on the form of zeros. -/
theorem remote?_plainZeros (v : Value) : remote? layerRecord? v.plainZeros = remote? layerRecord? v := by
  rw [remote?, remote?, layerRecord?_plainZeros]
  rcases layerRecord? _ v with _ | fields
  · rfl
  · -- nothing is made of fields of another number
    rcases fields with _ | ⟨a, _ | ⟨b, _ | ⟨c, _ | ⟨d, _ | ⟨e, _ | ⟨f, _ | ⟨g, _ | ⟨h, _ | ⟨i, _ | _⟩⟩⟩⟩⟩⟩⟩⟩⟩
    case cons.cons.cons.cons.cons.cons.cons.cons.cons.nil =>
      simp only [Option.map_some, List.map_cons, List.map_nil, Option.bind_eq_bind, Option.bind_some,
        setting_plainZeros _ bool?_plainZeros, setting_plainZeros _ str?_plainZeros,
        setting_plainZeros _ nat?_plainZeros, setting_plainZeros _ single?_plainZeros,
        setting_plainZeros _ nullable?_plainZeros]
    all_goals rfl

/-- The settings of the analysis do not depend on the form of zeros. -/
theorem analysis?_plainZeros (v : Value) :
    analysis? layerRecord? v.plainZeros = analysis? layerRecord? v := by
  rw [analysis?, analysis?, layerRecord?_plainZeros]
  rcases layerRecord? _ v with _ | _ | ⟨a, _ | _⟩
  case some.cons.nil =>
    simp only [Option.map_some, List.map_cons, List.map_nil, Option.bind_eq_bind, Option.bind_some,
      setting_plainZeros _ nullable?_plainZeros]
  all_goals rfl

/-- The settings of the results do not depend on the form of zeros. -/
theorem results?_plainZeros (v : Value) :
    results? layerRecord? v.plainZeros = results? layerRecord? v := by
  rw [results?, results?, layerRecord?_plainZeros]
  rcases layerRecord? _ v with _ | _ | ⟨a, _ | _⟩
  case some.cons.nil =>
    simp only [Option.map_some, List.map_cons, List.map_nil, Option.bind_eq_bind, Option.bind_some,
      setting_plainZeros _ str?_plainZeros]
  all_goals rfl

/-- A configuration does not depend on the form of zeros. -/
theorem ofValue?_plainZeros (v : Value) :
    ofValue? layerRecord? v.plainZeros = ofValue? layerRecord? v := by
  rw [ofValue?, ofValue?, layerRecord?_plainZeros]
  rcases layerRecord? _ v with _ | fields
  · rfl
  · rcases fields with _ | ⟨a, _ | ⟨b, _ | ⟨c, _ | ⟨d, _ | _⟩⟩⟩⟩
    case cons.cons.cons.cons.nil =>
      simp only [Option.map_some, List.map_cons, List.map_nil, Option.bind_eq_bind, Option.bind_some,
        setting_plainZeros _ str?_plainZeros, setting_plainZeros _ remote?_plainZeros,
        setting_plainZeros _ analysis?_plainZeros, setting_plainZeros _ results?_plainZeros]
    all_goals rfl

/-! ### What does not fit -/

/-- A reader that does not tell zeros apart accepts the same values. -/
theorem misfitValue_plainZeros {α : Type} {read : Value → Option α} (expected : String)
    (h : ∀ v, read v.plainZeros = read v) (path : List String) (v : Value) :
    misfitValue expected read path v.plainZeros = misfitValue expected read path v := by
  rw [misfitValue, misfitValue, h]

theorem misfitText_plainZeros (path : List String) (v : Value) :
    misfitText path v.plainZeros = misfitText path v :=
  misfitValue_plainZeros _ str?_plainZeros path v

theorem misfitTextOrNull_plainZeros (path : List String) (v : Value) :
    misfitTextOrNull path v.plainZeros = misfitTextOrNull path v :=
  misfitValue_plainZeros _ nullable?_plainZeros path v

/-- A record is searched the same if its fields are. -/
theorem misfitRecord_plainZeros {fields : List (String × MisfitSearch)} (name : String)
    (h : ∀ field ∈ fields, ∀ path v, field.2 path v.plainZeros = field.2 path v)
    (path : List String) (v : Value) :
    misfitRecord name fields path v.plainZeros = misfitRecord name fields path v := by
  cases v with
  | real p x =>
    rcases plainZeros_real p x with h | ⟨-, h⟩
    · rw [h]
    · rw [h]
      rfl
  | obj members =>
    rw [Value.plainZeros, plainZerosMembers_eq, misfitRecord, misfitRecord, List.findSome?_map]
    congr 1
    funext m
    cases hfind : Keyed.find? m.1 fields with
    | none => simp [hfind]
    | some search =>
      simpa [hfind] using h _ (Keyed.mem_of_find? hfind) (path ++ [m.1]) m.2
  -- Items are told apart by their places, so fields and items go together.
  | arr items =>
    rw [Value.plainZeros, plainZerosItems_eq, misfitRecord, misfitRecord]
    induction fields generalizing items with
    | nil => rfl
    | cons field fields ih =>
      obtain ⟨hfield, hfields⟩ := List.forall_mem_cons.mp h
      cases items with
      | nil => rfl
      | cons item items =>
        rw [List.map_cons, List.zip_cons_cons, List.zip_cons_cons, List.findSome?_cons,
          List.findSome?_cons, hfield, ih hfields]
  | _ => rfl

/-- What does not fit does not depend on the form of zeros. -/
theorem misfit?_plainZeros (v : Value) : misfit? v.plainZeros = misfit? v := by
  refine misfitRecord_plainZeros _ ?_ _ v
  have hremote : ∀ path v, misfitRemote path v.plainZeros = misfitRemote path v := by
    refine misfitRecord_plainZeros _ ?_
    simp only [List.forall_mem_cons]
    exact ⟨misfitValue_plainZeros _ bool?_plainZeros, misfitText_plainZeros, misfitText_plainZeros,
      misfitText_plainZeros, misfitValue_plainZeros _ nat?_plainZeros,
      misfitValue_plainZeros _ single?_plainZeros, misfitTextOrNull_plainZeros,
      misfitText_plainZeros, misfitText_plainZeros, by simp⟩
  simp only [List.forall_mem_cons]
  exact ⟨misfitText_plainZeros, hremote,
    misfitRecord_plainZeros _ (List.forall_mem_singleton.mpr misfitTextOrNull_plainZeros),
    misfitRecord_plainZeros _
      (List.forall_mem_singleton.mpr (misfitValue_plainZeros _ str?_plainZeros)), by simp⟩

/-! ### The template as a layer -/

/-- What the template holds. -/
def templateMembers : List (String × Value) := [
  ("analysis", .obj []),
  ("export", .obj [("output_dir", .str ".")]),
  ("remote", .obj [
    ("api_base", .str "https://openrouter.ai/api/v1"),
    ("enabled", .bool true),
    ("model", .str "openai/gpt-3.5-turbo"),
    ("provider", .str "openrouter"),
    ("temperature", .real .double (.zero .double false)),
    ("timeout_secs", .int 30)]),
  ("version", .str "1.0")]

/-- The template reads as the table of what it holds. -/
theorem parse?_template : Toml.parse? template = some templateMembers := by
  have hread : (Toml.parse? template).any (Value.sameMembers templateMembers) = true := by
    -- lines that are joined as lists of characters are evaluated faster
    rw [Toml.parse?, template, String.toList_intercalate]
    decide +kernel
  cases hparse : Toml.parse? template with
  | none =>
    rw [hparse] at hread
    cases hread
  | some members =>
    rw [hparse] at hread
    rw [Value.eq_of_sameMembers hread]

/-- Over the defaults the template changes nothing but the form of a zero. -/
theorem overlay_template :
    overlay defaults.plainZeros (Value.obj templateMembers).plainZeros = defaults.plainZeros := by
  have hdouble : (Binary.zero .double false).convert .single = .zero .single false := by
    decide +kernel
  rw [defaults_eq, templateMembers]
  simp only [Value.plainZeros, Value.plainZerosMembers, hdouble, if_true, ite_self]
  rfl

/-- A layer that says nothing but what the defaults say: one without a file, or the template. -/
def IsDefault (layer : Value) : Prop := layer = .obj [] ∨ layer = .obj templateMembers

/-- A layer that says what the defaults say changes nothing, but for the form of zeros. -/
theorem plainZeros_overlay_isDefault {below layer : Value}
    (h : below.plainZeros = defaults.plainZeros) (hlayer : IsDefault layer) :
    (overlay below layer).plainZeros = defaults.plainZeros := by
  rw [plainZeros_overlay, h]
  rcases hlayer with rfl | rfl
  · rw [defaults_eq]
    rfl
  · exact overlay_template

theorem plainZeros_foldl_isDefault {below : Value} {layers : List Value}
    (hbelow : below.plainZeros = defaults.plainZeros) (h : ∀ layer ∈ layers, IsDefault layer) :
    (layers.foldl overlay below).plainZeros = defaults.plainZeros := by
  induction layers generalizing below with
  | nil => exact hbelow
  | cons layer layers ih =>
    rw [List.forall_mem_cons] at h
    exact ih (plainZeros_overlay_isDefault hbelow h.1) h.2

/-- Below another layer, whatever it is, such layers do not count, but for the form of zeros. -/
theorem plainZeros_concat_isDefault {layers : List Value} (h : ∀ layer ∈ layers, IsDefault layer)
    (layer : Value) : ((layers ++ [layer]).foldl overlay defaults).plainZeros =
      ([layer].foldl overlay defaults).plainZeros := by
  rw [List.foldl_append, List.foldl_cons, List.foldl_nil, plainZeros_overlay,
    plainZeros_foldl_isDefault rfl h, ← plainZeros_overlay]
  rfl

/-- Whatever layer lies on top, layers that say what the defaults say leave the check as it is. -/
theorem check_isDefault [Url.DomainNames] {layers : List Value} (h : ∀ layer ∈ layers, IsDefault layer)
    (layer : Value) : check (layers ++ [layer]) = check [layer] := by
  have hsame := plainZeros_concat_isDefault h layer
  have hlayers : ofLayers? (layers ++ [layer]) = ofLayers? [layer] := by
    rw [ofLayers?, ofLayers?, ← ofValue?_plainZeros, hsame, ofValue?_plainZeros]
  have hmisfit : misfit (layers ++ [layer]) = misfit [layer] := by
    rw [misfit, misfit, ← misfit?_plainZeros, hsame, misfit?_plainZeros]
  rw [check, check, hlayers, hmisfit]

end Config

end PolyLex
