import PolyLex.Config.Layers

/-!
# What one layer does to another

A layer is a table of tables. `Value.at?` follows a path of names into it, and the law of `overlay`
is a law about paths: where the upper layer holds something, that is what counts, and anywhere else
the lower one shows through (`at?_overlay`). It holds on every path on which the upper layer has
tables only (`LeadsThrough`), and of tables that name nothing twice (`Tabled`), as every table that
`overlay` makes does (`tabled_overlay`).
-/

namespace PolyLex

namespace Json.Value

/-- What stands at a path of names. -/
def at? : List String → Value → Option Value
  | [], v => some v
  | key :: path, v => (v.members?.bind (Keyed.find? key)).bind (at? path)

/-- A path is followed by looking up its first name in a table. -/
theorem at?_cons (key : String) (path : List String) (v : Value) :
    at? (key :: path) v = (Keyed.find? key (v.members?.getD [])).bind (at? path) := by
  rw [at?]
  cases v.members? <;> rfl

/-- Each place on the way of the path is a table or empty. What stands at the end does not matter.
-/
def LeadsThrough : List String → Value → Prop
  | [], _ => True
  | key :: path, v => ∃ members, v = .obj members ∧
      ∀ w ∈ Keyed.find? key members, LeadsThrough path w

/-- A table whose keys are in order, each once, and so the tables in it. -/
inductive Tabled : Value → Prop
  | obj {members : List (String × Value)} : Keyed.Ordered members →
      (∀ m ∈ members, Tabled m.2) → Tabled (.obj members)
  /-- What is no table. -/
  | other {v : Value} : v.members? = none → Tabled v

theorem Tabled.ordered {members : List (String × Value)} (h : (Value.obj members).Tabled) :
    Keyed.Ordered members := by
  cases h with
  | obj hordered _ => exact hordered
  | other hnone => cases hnone

theorem Tabled.of_mem {members : List (String × Value)} (h : (Value.obj members).Tabled) :
    ∀ m ∈ members, m.2.Tabled := by
  cases h with
  | obj _ hmembers => exact hmembers
  | other hnone => cases hnone

/-- What is found in a table of tables is one. -/
theorem Tabled.of_find? {members : List (String × Value)} (h : (Value.obj members).Tabled)
    {key : String} {v : Value} (hfind : Keyed.find? key members = some v) : v.Tabled :=
  h.of_mem (key, v) (Keyed.mem_of_find? hfind)

theorem tabled_null : null.Tabled := .other rfl

theorem tabled_empty : (Value.obj []).Tabled := .obj Keyed.ordered_nil (by simp)

/-- An update by a table keeps the tables in order. -/
theorem Tabled.update {members : List (String × Value)} (h : (Value.obj members).Tabled) (key : String)
    {f : Option Value → Value} (hf : (f (Keyed.find? key members)).Tabled) :
    (Value.obj (Keyed.update key f members)).Tabled := by
  have hordered := Keyed.ordered_update key f h.ordered
  refine .obj hordered fun m hm => ?_
  by_cases hkey : key = m.1
  · -- what stands under the key is what was put there
    have hself := Keyed.find?_of_mem hordered.nodup_keys hm
    rw [← hkey, Keyed.find?_update_self key f h.ordered, Option.some.injEq] at hself
    exact hself ▸ hf
  · exact h.of_mem m ((Keyed.mem_update hm).resolve_left (Ne.symm hkey))

theorem Tabled.insert {members : List (String × Value)} (h : (Value.obj members).Tabled) (key : String)
    {v : Value} (hv : v.Tabled) : (Value.obj (Keyed.insert key v members)).Tabled :=
  h.update key hv

/-- The members of a table, and none of anything else. -/
theorem Tabled.members {v : Value} (h : v.Tabled) : (Value.obj (v.members?.getD [])).Tabled := by
  cases v with
  | obj members => exact h
  | _ => exact tabled_empty

mutual
/-- A settled value is a table of tables in order. -/
theorem tabled_settled : ∀ v : Value, v.settled.Tabled
  | .obj members => by
    rw [settled]
    exact .obj (Keyed.ordered_ofList _) fun m hm =>
      tabled_settledMembers members m (Keyed.mem_ofList hm)
  | .arr _ => .other (by rw [settled]; rfl)
  | .null | .bool _ | .int _ | .real _ _ | .str _ | .unfit => .other rfl
theorem tabled_settledMembers : ∀ members : List (String × Value),
    ∀ m ∈ settledMembers members, m.2.Tabled
  | [] => by simp [settledMembers]
  | (name, v) :: rest => by
    rw [settledMembers, List.forall_mem_cons]
    exact ⟨tabled_settled v, tabled_settledMembers rest⟩
end

end Json.Value

namespace Config

open Json (Value)
open Json.Value (at? LeadsThrough)
open Numeric

/-- The lowest layer, in the order of its names. -/
theorem defaults_eq : defaults = .obj [
    ("analysis", .obj [("default_language", .null)]),
    ("export", .obj [("output_dir", .str ".")]),
    ("remote", .obj [
      ("api_base", .str "https://openrouter.ai/api/v1"),
      ("enabled", .bool true),
      ("model", .str "openai/gpt-3.5-turbo"),
      ("provider", .str "openrouter"),
      ("site_name", .str "Universal Lexical Analyzer"),
      ("site_url", .str "https://lexical-analyzer.vercel.app"),
      ("temperature", .real .single (.zero .single false)),
      ("timeout_secs", .int 30)]),
    ("version", .str "1.0")] := rfl

/-! ### Overlays are tables -/

/-- A table is laid over what is below it, as far as that is a table. -/
theorem overlay_obj (below : Value) (members : List (String × Value)) :
    overlay below (.obj members) = .obj (overlayMembers (below.members?.getD []) members) := by
  cases below <;> rfl

mutual
/-- Whatever is laid over a table of tables makes one, since tables are made by updates. -/
theorem tabled_overlay {below : Value} (h : below.Tabled) : ∀ v, (overlay below v).Tabled
  | .obj members => by
    rw [overlay_obj]
    exact tabled_overlayMembers h.members members
  | .null | .bool _ | .int _ | .real _ _ | .str _ | .arr _ | .unfit => .other rfl
/-- Members laid over a table of tables make one. -/
theorem tabled_overlayMembers {entries : List (String × Value)} (h : (Value.obj entries).Tabled) :
    ∀ members, (Value.obj (overlayMembers entries members)).Tabled
  | [] => h
  | (key, v) :: rest => by
    rw [overlayMembers]
    refine tabled_overlayMembers (h.update key (tabled_overlay ?_ v)) rest
    cases hfind : Keyed.find? key entries with
    | none => exact Value.tabled_null
    | some old => exact h.of_find? hfind
end

/-! ### What shows -/

/-- A key of the upper table is laid over that of the lower one; the others show through. -/
theorem find?_overlayMembers {entries members : List (String × Value)}
    (hentries : Keyed.Ordered entries) (hmembers : Keyed.Ordered members) (key : String) :
    Keyed.find? key (overlayMembers entries members) =
      match Keyed.find? key members with
      | some v => some (overlay ((Keyed.find? key entries).getD .null) v)
      | none => Keyed.find? key entries := by
  induction members generalizing entries with
  | nil => rfl
  | cons m members ih =>
    obtain ⟨name, v⟩ := m
    rw [overlayMembers, ih (Keyed.ordered_update _ _ hentries) hmembers.tail, Keyed.find?]
    by_cases hname : name = key
    · -- no later member has the name
      subst hname
      rw [Keyed.find?_eq_none_of_lt hmembers.head_lt, if_pos rfl,
        Keyed.find?_update_self _ _ hentries]
    · rw [if_neg hname, Keyed.find?_update_of_ne _ hname]

/-- On a path through tables the upper layer counts wherever it holds something. -/
theorem at?_overlay {path : List String} {below v : Value} (hbelow : below.Tabled)
    (hv : v.Tabled) (hway : LeadsThrough path v) :
    at? path (overlay below v) =
      match at? path v with
      | some w => some (overlay ((at? path below).getD .null) w)
      | none => at? path below := by
  induction path generalizing below v with
  | nil => rfl
  | cons key path ih =>
    obtain ⟨members, rfl, hinner⟩ := hway
    have hover : at? (key :: path) (overlay below (.obj members)) =
        (Keyed.find? key (overlayMembers (below.members?.getD []) members)).bind (at? path) := by
      rw [overlay_obj]
      rfl
    have hupper : at? (key :: path) (.obj members) = (Keyed.find? key members).bind (at? path) := rfl
    rw [hover, Value.at?_cons key path below, hupper, find?_overlayMembers hbelow.members.ordered hv.ordered]
    cases hfind : Keyed.find? key members with
    | none => rfl
    | some w =>
      have hinner := hinner w hfind
      have hw := hv.of_find? hfind
      cases hold : Keyed.find? key (below.members?.getD []) with
      | some old => exact ih (hbelow.members.of_find? hold) hw hinner
      | none =>
        -- nothing lies below, which is the same as an empty table there
        simp only [Option.getD_none, Option.bind_some, Option.bind_none,
          ih Value.tabled_null hw hinner]
        cases path with
        | nil => rfl
        | cons key path => rfl

end Config

end PolyLex
