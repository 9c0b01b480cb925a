import PolyLex.Proofs.Config.Overlay

/-!
# The values of TOML documents

Whatever a document says, in headers, in keys with dots or within a line, its value is made up of
words and texts by lists and by tables that hold their keys in order and none of them twice. So a
property that is handed on from the parts of a value to the whole (`Inherited`) holds of every
document (`Inherited.parse?`): that is an invariant of the draft of a document, and every statement
keeps it.

* `tabled_parse?` — tables hold their keys in order, each once;
* `signed_parse?` — whole numbers have 64 bits with a sign.
-/

namespace PolyLex.Toml

open Json (Value)

/-- A property of values that parts hand on to the whole. -/
structure Inherited (P : Value → Prop) : Prop where
  word {cs : List Char} {v : Value} : word? cs = some v → P v
  str (s : String) : P (.str s)
  arr {items : List Value} : (∀ v ∈ items, P v) → P (.arr items)
  obj {members : List (String × Value)} : Keyed.Ordered members → (∀ m ∈ members, P m.2) →
    P (.obj members)

variable {P : Value → Prop}

/-! ### Nodes -/

/-- A node whose values have the property and whose tables hold each key once, in order. -/
inductive Node.Holds (P : Value → Prop) : Node → Prop
  | value {v : Value} : P v → Holds P (.value v)
  | table {origin : Origin} {entries : Table} : Keyed.Ordered entries →
      (∀ e ∈ entries, Holds P e.2) → Holds P (.table origin entries)
  | tables {items : List Table} : (∀ t ∈ items, Keyed.Ordered t) →
      (∀ t ∈ items, ∀ e ∈ t, Holds P e.2) → Holds P (.tables items)

theorem closeEntries_eq (t : Table) : closeEntries t = t.map fun e => (e.1, e.2.close) := by
  induction t with
  | nil => rfl
  | cons e t ih => rw [closeEntries, ih, List.map_cons]

theorem closeTables_eq (items : List Table) :
    closeTables items = items.map fun t => .obj (closeEntries t) := by
  induction items with
  | nil => rfl
  | cons t items ih => rw [closeTables, ih, List.map_cons]

/-- A table of values with an inherited property has it itself. -/
theorem Inherited.obj_closeEntries (hP : Inherited P) {t : Table} (hordered : Keyed.Ordered t)
    (ht : ∀ e ∈ t, P e.2.close) : P (.obj (closeEntries t)) := by
  rw [closeEntries_eq]
  refine hP.obj (List.pairwise_map.mpr hordered) fun m hm => ?_
  obtain ⟨e, he, rfl⟩ := List.mem_map.mp hm
  exact ht e he

/-- Closing a node keeps an inherited property. -/
theorem Inherited.close (hP : Inherited P) {n : Node} (h : n.Holds P) : P n.close := by
  induction h with
  | value hv => exact hv
  | table hordered _ ih => exact hP.obj_closeEntries hordered ih
  | tables hordered _ ih =>
    rw [Node.close, closeTables_eq]
    refine hP.arr fun v hv => ?_
    obtain ⟨t, ht, rfl⟩ := List.mem_map.mp hv
    exact hP.obj_closeEntries (hordered t ht) (ih t ht)

/-! ### Tables -/

/-- A table that holds each key once, in order, over nodes with the property. -/
structure Table.Holds (P : Value → Prop) (t : Table) : Prop where
  ordered : Keyed.Ordered t
  nodes : ∀ e ∈ t, e.2.Holds P

namespace Table.Holds

variable {t t' : Table}

theorem nil : Table.Holds P [] := ⟨Keyed.ordered_nil, by simp⟩

theorem close (hP : Inherited P) (h : t.Holds P) : P (.obj (closeEntries t)) :=
  hP.obj_closeEntries h.ordered fun e he => hP.close (h.nodes e he)

theorem of_find? {origin : Origin} {key : String} {inner : Table} (h : t.Holds P)
    (hfind : Keyed.find? key t = some (.table origin inner)) : inner.Holds P := by
  cases h.nodes _ (Keyed.mem_of_find? hfind) with
  | table hordered hnodes => exact ⟨hordered, hnodes⟩

theorem of_find?_tables {key : String} {items : List Table} (h : t.Holds P)
    (hfind : Keyed.find? key t = some (.tables items)) : ∀ u ∈ items, u.Holds P := by
  cases h.nodes _ (Keyed.mem_of_find? hfind) with
  | tables hordered hnodes => exact fun u hu => ⟨hordered u hu, hnodes u hu⟩

theorem table (h : t.Holds P) (origin : Origin) : (Node.table origin t).Holds P :=
  .table h.ordered h.nodes

theorem of_items {items : List Table} (h : ∀ u ∈ items, u.Holds P) : (Node.tables items).Holds P :=
  .tables (fun u hu => (h u hu).ordered) fun u hu => (h u hu).nodes

theorem insert (h : t.Holds P) (key : String) {n : Node} (hn : n.Holds P) :
    Table.Holds P (Keyed.insert key n t) := by
  refine ⟨Keyed.ordered_update _ _ h.ordered, fun e he => ?_⟩
  rcases Keyed.mem_insert he with rfl | he
  · exact hn
  · exact h.nodes e he

/-- The last of the tables of a list is changed, or one is added behind it. -/
theorem concat {items : List Table} (h : ∀ u ∈ items, u.Holds P) {last : Table}
    (hlast : last.Holds P) : (Node.tables (items ++ [last])).Holds P := by
  refine of_items fun u hu => ?_
  rcases List.mem_append.mp hu with hu | hu
  · exact h u hu
  · exact List.mem_singleton.mp hu ▸ hlast

/-- A change inside a table keeps an inherited property of all values. -/
theorem within {path : List String} {change : Table → Option Table}
    (hchange : ∀ {u u' : Table}, u.Holds P → change u = some u' → u'.Holds P) (h : t.Holds P)
    (hwithin : t.within path change = some t') : t'.Holds P := by
  induction path generalizing t t' with
  | nil => exact hchange h hwithin
  | cons key path ih =>
    rw [Table.within] at hwithin
    split at hwithin
    · obtain ⟨inner, hinner, rfl⟩ := Option.map_eq_some_iff.mp hwithin
      exact h.insert key ((ih nil hinner).table _)
    · next origin inner hfind =>
      obtain ⟨inner', hinner, rfl⟩ := Option.map_eq_some_iff.mp hwithin
      exact h.insert key ((ih (h.of_find? hfind) hinner).table _)
    -- A list of tables stands for its last one; the others stay.
    · next items hfind =>
      have hitems := h.of_find?_tables hfind
      split at hwithin
      · cases hwithin
      · next last hlast =>
        obtain ⟨last', hlast', rfl⟩ := Option.map_eq_some_iff.mp hwithin
        exact h.insert key (concat (fun u hu => hitems u ((List.dropLast_sublist items).subset hu))
          (ih (hitems last (List.mem_of_getLast? hlast)) hlast'))
    · cases hwithin

/-- Opening a table by its header keeps an inherited property of all values. -/
theorem define {path : List String} (h : t.Holds P) (hdefine : t.define path = some t') :
    t'.Holds P := by
  unfold Table.define at hdefine
  split at hdefine
  · cases hdefine
  · next key _ =>
    refine h.within (fun {u u'} hu hchange => ?_) hdefine
    split at hchange
    · cases hchange
      exact hu.insert key (nil.table _)
    · next entries hfind =>
      cases hchange
      exact hu.insert key ((hu.of_find? hfind).table _)
    · cases hchange

/-- Adding an item to an array of tables keeps an inherited property of all values. -/
theorem append {path : List String} (h : t.Holds P) (happend : t.append path = some t') :
    t'.Holds P := by
  unfold Table.append at happend
  split at happend
  · cases happend
  · next key _ =>
    refine h.within (fun {u u'} hu hchange => ?_) happend
    split at hchange
    · cases hchange
      have hnone : ∀ u ∈ ([] : List Table), u.Holds P := by simp
      exact hu.insert key (concat hnone nil)
    · next items hfind =>
      cases hchange
      exact hu.insert key (concat (hu.of_find?_tables hfind) nil)
    · cases hchange

/-- An entry with an inherited property keeps that of the table. -/
theorem put {key : List String} {v : Value} (hv : P v) (h : t.Holds P)
    (hput : t.put v key = some t') : t'.Holds P := by
  induction key generalizing t t' with
  | nil => cases hput
  | cons name key ih =>
    cases key with
    | nil =>
      rw [Table.put, Table.add] at hput
      split at hput
      · cases hput
      · cases hput
        exact h.insert name (.value hv)
    -- The tables on the way are new, or have been there with the property.
    | cons next rest =>
      rw [Table.put] at hput
      split at hput
      · obtain ⟨inner, hinner, rfl⟩ := Option.map_eq_some_iff.mp hput
        exact h.insert name ((ih nil hinner).table _)
      · next origin inner hfind =>
        split at hput
        · cases hput
        · obtain ⟨inner', hinner, rfl⟩ := Option.map_eq_some_iff.mp hput
          exact h.insert name ((ih (h.of_find? hfind) hinner).table _)
      · cases hput

end Table.Holds

/-! ### Values -/

/-- A reader whose values have the property. -/
def ReadsHolding (P : Value → Prop) (read : List Char → Option (Value × List Char)) : Prop :=
  ∀ {cs v rest}, read cs = some (v, rest) → P v

section Values

variable {item : List Char → Option (Value × List Char)} (hitem : ReadsHolding P item)
include hitem

/-- The items of an array have what their reader promises. -/
theorem holds_of_readItems {cs rest : List Char} {vs : List Value}
    (h : readItems item cs = some (vs, rest)) : ∀ v ∈ vs, P v := by
  fun_induction readItems item cs generalizing vs rest with
  | case1 cs more hskip =>
    cases h
    simp
  | case2 cs hskip ih =>
    obtain ⟨⟨v, mid⟩, hv, h⟩ := Option.bind_eq_some_iff.mp h
    dsimp only at h
    split at h
    · next next hnext =>
      split at h
      · next hlen =>
        obtain ⟨⟨more, after⟩, hmore, h⟩ := Option.bind_eq_some_iff.mp h
        cases h
        exact List.forall_mem_cons.mpr ⟨hitem hv, ih next hlen hmore⟩
      · cases h
    · cases h
      exact List.forall_mem_singleton.mpr (hitem hv)
    · cases h

/-- The value of an entry has what its reader promises. -/
theorem holds_of_readEntry {cs rest : List Char} {key : List String} {v : Value}
    (h : readEntry item cs = some ((key, v), rest)) : P v := by
  obtain ⟨⟨key', mid⟩, -, h⟩ := Option.bind_eq_some_iff.mp h
  dsimp only at h
  split at h
  · obtain ⟨⟨v', rest'⟩, hv, h⟩ := Option.bind_eq_some_iff.mp h
    cases h
    exact hitem hv
  · cases h

/-- The entries of an inline table have what their reader promises. -/
theorem Table.Holds.readEntries {t t' : Table} {cs rest : List Char} (h : t.Holds P)
    (hread : readEntries item t cs = some (t', rest)) : t'.Holds P := by
  fun_induction Toml.readEntries item t cs with
  | case1 t cs ih =>
    obtain ⟨⟨⟨key, v⟩, mid⟩, hentry, hread⟩ := Option.bind_eq_some_iff.mp hread
    obtain ⟨u, hput, hread⟩ := Option.bind_eq_some_iff.mp hread
    have hu : u.Holds P := h.put (holds_of_readEntry hitem hentry) hput
    split at hread
    · next next _ =>
      split at hread
      · next hlen => exact ih u next hlen hu hread
      · cases hread
    · cases hread
      exact hu
    · cases hread

end Values

section Documents

variable (hP : Inherited P)
include hP

/-- Every word of a document is read as a value with the property. -/
theorem Inherited.readWord {cs rest : List Char} {v : Value}
    (h : readWord cs = some (v, rest)) : P v := by
  unfold Toml.readWord at h
  dsimp only at h
  split at h
  · split at h
    all_goals
      obtain ⟨w, hw, h⟩ := Option.map_eq_some_iff.mp h
      cases h
      exact hP.word hw
  · obtain ⟨w, hw, h⟩ := Option.map_eq_some_iff.mp h
    cases h
    exact hP.word hw

/-- Every value of a document, however deep, has an inherited property. -/
theorem Inherited.readValue (depth : Nat) : ReadsHolding P (readValue depth) := by
  induction depth with
  | zero =>
    intro cs v rest h
    unfold Toml.readValue at h
    split at h
    · cases h
    · cases h
    · split at h
      · obtain ⟨s, -, h⟩ := Option.map_eq_some_iff.mp h
        cases h
        exact hP.str _
      · exact hP.readWord h
  -- Arrays and inline tables hold values of less depth.
  | succ depth ih =>
    intro cs v rest h
    unfold Toml.readValue at h
    split at h
    · obtain ⟨vs, hvs, h⟩ := Option.map_eq_some_iff.mp h
      cases h
      exact hP.arr (holds_of_readItems ih hvs)
    · dsimp only at h
      split at h
      · cases h
        exact hP.obj Keyed.ordered_nil (by simp)
      · obtain ⟨⟨t, rest'⟩, ht, h⟩ := Option.map_eq_some_iff.mp h
        cases h
        exact (Table.Holds.nil.readEntries ih ht).close hP
    · split at h
      · obtain ⟨s, -, h⟩ := Option.map_eq_some_iff.mp h
        cases h
        exact hP.str _
      · exact hP.readWord h

/-! ### Documents -/

/-- The values that a statement brings have the property. -/
def Statement.Holds (P : Value → Prop) : Statement → Prop
  | .entry _ v => P v
  | _ => True

theorem Inherited.readStatement {cs rest : List Char} {statement : Statement}
    (h : readStatement cs = some (statement, rest)) : statement.Holds P := by
  unfold Toml.readStatement at h
  split at h
  · obtain ⟨_, -, h⟩ := Option.bind_eq_some_iff.mp h
    obtain ⟨_, -, h⟩ := Option.bind_eq_some_iff.mp h
    cases h
    trivial
  · obtain ⟨_, -, h⟩ := Option.bind_eq_some_iff.mp h
    obtain ⟨_, -, h⟩ := Option.bind_eq_some_iff.mp h
    cases h
    trivial
  · split at h
    · cases h
      trivial
    · obtain ⟨⟨⟨key, v⟩, mid⟩, hentry, h⟩ := Option.bind_eq_some_iff.mp h
      cases h
      exact holds_of_readEntry (hP.readValue nestingLimit) hentry

omit hP in
/-- A statement adds to a draft nothing without the property. -/
theorem Draft.holds_add {d d' : Draft} {statement : Statement} (hs : statement.Holds P)
    (h : d.table.Holds P) (hadd : d.add statement = some d') : d'.table.Holds P := by
  cases statement with
  | blank =>
    cases hadd
    exact h
  | header path =>
    obtain ⟨t, ht, rfl⟩ := Option.map_eq_some_iff.mp hadd
    exact h.define ht
  | item path =>
    obtain ⟨t, ht, rfl⟩ := Option.map_eq_some_iff.mp hadd
    exact h.append ht
  | entry key v =>
    obtain ⟨t, ht, rfl⟩ := Option.map_eq_some_iff.mp hadd
    exact h.within (fun hu hput => hu.put hs hput) ht

/-- All that a document defines has an inherited property. -/
theorem Inherited.readLines {d d' : Draft} {cs : List Char} (h : d.table.Holds P)
    (hread : readLines d cs = some d') : d'.table.Holds P := by
  fun_induction Toml.readLines d cs with
  | case1 d cs ih =>
    obtain ⟨⟨statement, mid⟩, hstatement, hread⟩ := Option.bind_eq_some_iff.mp hread
    obtain ⟨u, hadd, hread⟩ := Option.bind_eq_some_iff.mp hread
    obtain ⟨next, -, hread⟩ := Option.bind_eq_some_iff.mp hread
    have hu := Draft.holds_add (hP.readStatement hstatement) h hadd
    split at hread
    · cases hread
      exact hu
    · split at hread
      · next hlen => exact ih u _ hlen hu hread
      · cases hread

/-- Every document has the property. -/
theorem Inherited.parse? {text : String} {members : List (String × Value)}
    (h : parse? text = some members) : P (.obj members) := by
  obtain ⟨d, hread, rfl⟩ := Option.map_eq_some_iff.mp h
  exact (hP.readLines .nil hread).close hP

end Documents

/-! ### Two such properties -/

/-- Whole numbers of a document have 64 bits and a sign. -/
theorem bounds_of_bounded? {n m : Int} (h : bounded? n = some m) :
    -0x8000000000000000 ≤ m ∧ m < 0x8000000000000000 := by
  unfold bounded? at h
  split at h
  · next hn =>
    cases h
    exact hn
  · cases h

theorem bounds_of_whole? {cs : List Char} {n : Int} (h : whole? cs = some n) :
    -0x8000000000000000 ≤ n ∧ n < 0x8000000000000000 := by
  unfold whole? at h
  split at h
  all_goals
    obtain ⟨ds, -, h⟩ := Option.bind_eq_some_iff.mp h
    exact bounds_of_bounded? h

/-- What a word is: a plain value or a moment, whole numbers of 64 bits with a sign. -/
theorem word?_cases {cs : List Char} {v : Value} (h : word? cs = some v) :
    (∃ b, v = .bool b) ∨ v = .obj [("moment", .str (String.ofList cs))] ∨
      (∃ n, v = .int n ∧ -0x8000000000000000 ≤ n ∧ n < 0x8000000000000000) ∨
      ∃ x, v = .real .double x := by
  unfold word? at h
  split at h
  · cases h
    exact .inl ⟨true, rfl⟩
  · split at h
    · cases h
      exact .inl ⟨false, rfl⟩
    · split at h
      · cases h
        exact .inr (.inl rfl)
      · split at h
        · next n hn =>
          cases h
          exact .inr (.inr (.inl ⟨n, rfl, bounds_of_whole? hn⟩))
        · obtain ⟨x, -, rfl⟩ := Option.map_eq_some_iff.mp h
          exact .inr (.inr (.inr ⟨x, rfl⟩))

/-- To have the keys in order in every table is inherited. -/
theorem inherited_tabled : Inherited Value.Tabled where
  word h := by
    rcases word?_cases h with ⟨b, rfl⟩ | rfl | ⟨n, rfl, -⟩ | ⟨x, rfl⟩
    · exact .other rfl
    · refine .obj (List.pairwise_singleton _ _) fun m hm => ?_
      rw [List.mem_singleton] at hm
      exact hm ▸ .other rfl
    · exact .other rfl
    · exact .other rfl
  str _ := .other rfl
  arr _ := .other rfl
  obj := .obj

/-- The table that a document stands for. -/
theorem tabled_parse? {text : String} {members : List (String × Value)}
    (h : parse? text = some members) : (Value.obj members).Tabled :=
  inherited_tabled.parse? h

/-- A value whose whole numbers have 64 bits with a sign, wherever in it they stand. -/
inductive Signed : Value → Prop
  | null : Signed .null
  | bool (b : Bool) : Signed (.bool b)
  | int {n : Int} : -0x8000000000000000 ≤ n → n < 0x8000000000000000 → Signed (.int n)
  | real (p : Numeric.Precision) (x : Numeric.Binary) : Signed (.real p x)
  | str (s : String) : Signed (.str s)
  | arr {items : List Value} : (∀ v ∈ items, Signed v) → Signed (.arr items)
  | obj {members : List (String × Value)} : (∀ m ∈ members, Signed m.2) → Signed (.obj members)

/-- To hold 64-bit numbers with a sign only is inherited. -/
theorem inherited_signed : Inherited Signed where
  word h := by
    rcases word?_cases h with ⟨b, rfl⟩ | rfl | ⟨n, rfl, hlow, hhigh⟩ | ⟨x, rfl⟩
    · exact .bool b
    · exact .obj (List.forall_mem_singleton.mpr (.str _))
    · exact .int hlow hhigh
    · exact .real _ x
  str := .str
  arr := .arr
  obj _ := .obj

/-- The whole numbers of a document have 64 bits with a sign. -/
theorem signed_parse? {text : String} {members : List (String × Value)}
    (h : parse? text = some members) : Signed (.obj members) :=
  inherited_signed.parse? h

end PolyLex.Toml
