import PolyLex.Proofs.Numeric.Layout
import PolyLex.Proofs.Toml.Values
import PolyLex.Proofs.Toml.Word

/-!
# Documents come back

The document of a table is read line by line, and each line does to the draft what it says
(`readLines_entryLines`, `readLines_tableLines`). In the end the draft holds what was written: the
plain entries, and the inner tables with theirs (`parse?_document`). Entries that have no plain
value are not written.
-/

namespace PolyLex.Toml

open Json (Value)
open Numeric Text

/-! ### Keys -/

/-- A key that is written as it is. -/
def IsBareKey (key : String) : Prop := key.toList ≠ [] ∧ ∀ c ∈ key.toList, isKeyPart c = true

instance (key : String) : Decidable (IsBareKey key) :=
  @instDecidableAnd _ _ _ (List.decidableBAll _ _)

section Keys

variable {key : String} (hkey : IsBareKey key)
include hkey

/-- A key starts with none of the characters that mean something else. -/
theorem IsBareKey.exists_cons : ∃ c cs, key.toList = c :: cs ∧ ∀ d, isKeyPart d = false → c ≠ d := by
  obtain ⟨c, cs, hcs⟩ := List.exists_cons_of_ne_nil hkey.1
  refine ⟨c, cs, hcs, ?_⟩
  rintro d hd rfl
  cases hd.symm.trans (hkey.2 c (hcs ▸ List.mem_cons_self))

theorem head_ne_key {d : Char} (hd : isKeyPart d = false) {back more : List Char} :
    key.toList ++ back ≠ d :: more := by
  obtain ⟨c, cs, hcs, hc⟩ := hkey.exists_cons
  rw [hcs]
  exact fun heq => hc d hd (List.cons.inj heq).1

theorem skipGap_key (back : List Char) : skipGap (key.toList ++ back) = key.toList ++ back := by
  obtain ⟨c, cs, hcs, hc⟩ := hkey.exists_cons
  have hgap : isGap c = false := by
    simp [isGap, hc ' ' (by decide), hc '\t' (by decide)]
  rw [hcs]
  exact dropWhile_of_avoids (avoids_cons hgap _)

theorem readKeyPart_key {back : List Char} (hback : Avoids isKeyPart back) :
    readKeyPart (key.toList ++ back) = some (key, back) := by
  rw [readKeyPart.eq_3, takeWhile_append_of_avoids hkey.2 hback,
    dropWhile_append_of_avoids hkey.2 hback, if_neg (by simp [hkey.1]), String.ofList_toList]
  · exact fun more heq => head_ne_key hkey (by decide) heq
  · exact fun more heq => head_ne_key hkey (by decide) heq

/-- A bare key that no dot follows is a path of one name. -/
theorem readKey_key {back : List Char} (hback : Avoids isKeyPart back)
    (hdot : Avoids (· == '.') (skipGap back)) :
    readKey (key.toList ++ back) = some ([key], skipGap back) := by
  have hparts : readParts (key.toList ++ back) = some ([key], skipGap back) := by
    rw [readParts, skipGap_key hkey, readKeyPart_key hkey hback]
    simp only [Option.bind_eq_bind, Option.bind_some]
    split
    · next heq =>
      rw [heq] at hdot
      cases hdot '.' rfl
    · rfl
  rw [readKey, hparts]
  rfl

end Keys

/-! ### Lines -/

theorem readLines_nil (d : Draft) : readLines d [] = some d := by
  rw [readLines]
  rfl

/-- A statement that ends with its line, and the lines that follow. -/
theorem readLines_of_statement {d : Draft} {cs rest : List Char} {statement : Statement}
    (h : readStatement (skipGap cs) = some (statement, '\n' :: rest))
    (hlen : rest.length < cs.length) :
    readLines d cs = (d.add statement).bind fun d => readLines d rest := by
  have hend : endLine? ('\n' :: rest) = some rest := rfl
  rw [readLines, h]
  simp only [Option.bind_eq_bind, Option.bind_some, hend]
  cases d.add statement with
  | none => rfl
  | some d =>
    cases rest with
    | nil => exact (readLines_nil d).symm
    | cons c rest => exact if_pos hlen

theorem readLines_blank (d : Draft) (rest : List Char) :
    readLines d ('\n' :: rest) = readLines d rest := by
  have hstatement : readStatement (skipGap ('\n' :: rest)) = some (.blank, '\n' :: rest) := rfl
  exact readLines_of_statement hstatement (Nat.lt_succ_self _)

/-- A line that starts with a key is not blank. -/
theorem endLine?_key {key : String} (hkey : IsBareKey key) (back : List Char) :
    endLine? (key.toList ++ back) = none := by
  rw [endLine?, skipGap_key hkey]
  obtain ⟨c, cs, hcs, hc⟩ := hkey.exists_cons
  have hhash := hc '#' (by decide)
  have hbreak := hc '\n' (by decide)
  have hreturn := hc '\r' (by decide)
  rw [hcs]
  simp [skipComment, atBreak?, hhash, hbreak, hreturn]

/-- The line of an entry puts what is read of its value under its key. -/
theorem readLines_entryLine {key : String} (hkey : IsBareKey key) {v w : Value} (hv : ReadsAs v w)
    (d : Draft) (rest : List Char) :
    readLines d (entryLine key v ++ rest) =
      (d.add (.entry [key] w)).bind fun d => readLines d rest := by
  obtain ⟨cs, hchars, hvisible, hread⟩ := hv
  have hline : entryLine key v ++ rest = key.toList ++ (' ' :: '=' :: ' ' :: (cs ++ '\n' :: rest)) := by
    simp [entryLine, hchars]
  have hstatement : readStatement (skipGap (entryLine key v ++ rest)) =
      some (.entry [key] w, '\n' :: rest) := by
    have hentry : readEntry (readValue nestingLimit) (entryLine key v ++ rest) =
        some (([key], w), '\n' :: rest) := by
      -- No gap stands in front of the value, which begins with a visible character.
      have hgap : skipGap (' ' :: (cs ++ '\n' :: rest)) = cs ++ '\n' :: rest :=
        dropWhile_of_avoids (hvisible.append fun _ => avoids_cons (by decide) _)
      rw [readEntry, hline, readKey_key hkey (avoids_cons (by decide) _) (avoids_cons (by decide) _)]
      show ((readValue nestingLimit (skipGap (' ' :: (cs ++ '\n' :: rest)))).bind _) = _
      rw [hgap, hread]
      rfl
    rw [hline] at hentry ⊢
    rw [skipGap_key hkey, readStatement.eq_3, endLine?_key hkey, if_neg (by simp), hentry]
    · rfl
    · exact fun more heq => head_ne_key hkey (by decide) heq
    · exact fun more heq => head_ne_key hkey (by decide) heq
  refine readLines_of_statement hstatement ?_
  rw [hline]
  simp
  omega

theorem readLines_header {key : String} (hkey : IsBareKey key) (d : Draft) (rest : List Char) :
    readLines d ('[' :: (key.toList ++ ']' :: '\n' :: rest)) =
      (d.add (.header [key])).bind fun d => readLines d rest := by
  have hstatement : readStatement (skipGap ('[' :: (key.toList ++ ']' :: '\n' :: rest))) =
      some (.header [key], '\n' :: rest) := by
    have hgap : skipGap (']' :: '\n' :: rest) = ']' :: '\n' :: rest :=
      dropWhile_of_avoids (avoids_cons (by decide) _)
    have hread : readKey (key.toList ++ ']' :: '\n' :: rest) =
        some ([key], skipGap (']' :: '\n' :: rest)) :=
      readKey_key hkey (avoids_cons (by decide) _) (by rw [hgap]; exact avoids_cons (by decide) _)
    have hopen : skipGap ('[' :: (key.toList ++ ']' :: '\n' :: rest)) =
        '[' :: (key.toList ++ ']' :: '\n' :: rest) :=
      dropWhile_of_avoids (avoids_cons (by decide) _)
    rw [hopen, readStatement.eq_2, hread, hgap]
    · rfl
    · exact fun more heq => head_ne_key hkey (by decide) heq
  refine readLines_of_statement hstatement ?_
  simp
  omega

/-! ### Entries -/

/-- Nodes put into a table one after the other. -/
def Table.fill (t : Table) (nodes : List (String × Node)) : Table :=
  nodes.foldl (fun t e => Keyed.insert e.1 e.2 t) t

theorem Table.ordered_fill {t : Table} (h : Keyed.Ordered t) (nodes : List (String × Node)) :
    Keyed.Ordered (t.fill nodes) := by
  induction nodes generalizing t with
  | nil => exact h
  | cons e nodes ih => exact ih (Keyed.ordered_update _ _ h)

/-- Filling a table leaves its other keys alone. -/
theorem Table.find?_fill {key : String} {nodes : List (String × Node)}
    (h : key ∉ nodes.map Prod.fst) (t : Table) :
    Keyed.find? key (t.fill nodes) = Keyed.find? key t := by
  induction nodes generalizing t with
  | nil => rfl
  | cons e nodes ih =>
    rw [List.map_cons, List.mem_cons, not_or] at h
    exact (ih h.2 _).trans (Keyed.find?_update_of_ne _ (Ne.symm h.1) t)

theorem Table.fill_append (t : Table) (nodes more : List (String × Node)) :
    t.fill (nodes ++ more) = (t.fill nodes).fill more := List.foldl_append ..

/-- A table comes to what its nodes come to. -/
theorem closeEntries_fill (nodes : List (String × Node)) :
    closeEntries (Table.fill [] nodes) = Keyed.ofList (nodes.map fun e => (e.1, e.2.close)) := by
  suffices ∀ t : Table, closeEntries (t.fill nodes) =
      (nodes.map fun e => (e.1, e.2.close)).foldl
        (fun members e => Keyed.insert e.1 e.2 members) (closeEntries t) from this []
  induction nodes with
  | nil => exact fun _ => rfl
  | cons e nodes ih =>
    intro t
    have hclose : closeEntries (Keyed.insert e.1 e.2 t) =
        Keyed.insert e.1 e.2.close (closeEntries t) := by
      simp only [closeEntries_eq]
      exact Keyed.map_insert Node.close e.1 e.2 t
    rw [List.map_cons, List.foldl_cons, ← hclose]
    exact ih _

section Members

variable {f : Value → Value} {m : String × Value} {members : List (String × Value)}

/-- The plain entries of a table, each plain value read as `f` of it. -/
def plainEntries (f : Value → Value) (members : List (String × Value)) : List (String × Value) :=
  members.filterMap fun m => (plainChars? m.2).map fun _ => (m.1, f m.2)

/-- Plain entries as nodes of a table. -/
def valueNodes (entries : List (String × Value)) : List (String × Node) :=
  entries.map fun e => (e.1, .value e.2)

/-- Members that can be written and read: their keys are plain and distinct, and each plain value is
read as `f` of it. -/
structure Writable (f : Value → Value) (members : List (String × Value)) : Prop where
  nodup : (members.map Prod.fst).Nodup
  bare : ∀ m ∈ members, IsBareKey m.1
  plain : ∀ m ∈ members, (plainChars? m.2).isSome → ReadsAs m.2 (f m.2)

theorem Writable.tail (h : Writable f (m :: members)) : Writable f members :=
  ⟨(List.nodup_cons.mp h.nodup).2, fun m hm => h.bare m (List.mem_cons_of_mem _ hm),
    fun m hm => h.plain m (List.mem_cons_of_mem _ hm)⟩

theorem Writable.head_ne (h : Writable f (m :: members)) : ∀ m' ∈ members, m.1 ≠ m'.1 := by
  intro m' hm' heq
  exact (List.nodup_cons.mp h.nodup).1 (List.mem_map.mpr ⟨m', hm', heq.symm⟩)

/-- The entries of a table are put into the table that the draft has at its path, which is the one
that `place` puts back there. -/
theorem readLines_entryLines {path : List String} {place : Table → Table}
    (hplace : ∀ inner change, (place inner).within path change = (change inner).map place)
    (h : Writable f members) {t : Table}
    (hfresh : ∀ m ∈ members, Keyed.find? m.1 t = none) (rest : List Char) :
    readLines ⟨place t, path⟩ (entryLines members ++ rest) =
      readLines ⟨place (t.fill (valueNodes (plainEntries f members))), path⟩ rest := by
  induction members generalizing t with
  | nil => rfl
  | cons m members ih =>
    obtain ⟨hm, hfresh⟩ := List.forall_mem_cons.mp hfresh
    have hlines : entryLines (m :: members) ++ rest =
        entryLine m.1 m.2 ++ (entryLines members ++ rest) := by
      simp [entryLines]
    rw [hlines]
    cases hchars : plainChars? m.2 with
    -- A value that is not written on a line leaves no trace in the table.
    | none =>
      have hskip : plainEntries f (m :: members) = plainEntries f members := by
        simp [plainEntries, hchars]
      rw [hskip, entryLine, hchars]
      exact ih h.tail hfresh
    | some cs =>
      have hkeep : plainEntries f (m :: members) = (m.1, f m.2) :: plainEntries f members := by
        simp [plainEntries, hchars]
      have hreads : ReadsAs m.2 (f m.2) := h.plain m List.mem_cons_self (by simp [hchars])
      have hput : (Draft.mk (place t) path).add (.entry [m.1] (f m.2)) =
          some ⟨place (Keyed.insert m.1 (.value (f m.2)) t), path⟩ := by
        simp [Draft.add, hplace, Table.put, Table.add, hm]
      rw [readLines_entryLine (h.bare m List.mem_cons_self) hreads, hput, Option.bind_some, hkeep]
      -- The entry occupies its own key only.
      refine ih h.tail fun m' hm' => ?_
      exact (Keyed.find?_update_of_ne _ (h.head_ne m' hm') t).trans (hfresh m' hm')

/-! ### Tables -/

/-- The inner tables of a table. -/
def innerTables (f : Value → Value) (members : List (String × Value)) :
    List (String × List (String × Value)) :=
  members.filterMap fun m => m.2.members?.map fun inner => (m.1, plainEntries f inner)

/-- Inner tables as nodes of a table. -/
def tableNodes (tables : List (String × List (String × Value))) : List (String × Node) :=
  tables.map fun e => (e.1, .table .header (Table.fill [] (valueNodes e.2)))

/-- An inner table becomes a table with a header. -/
theorem readLines_tableLines {key : String} (hkey : IsBareKey key) (h : Writable f members)
    {d : Draft} (hordered : Keyed.Ordered d.table) (hfresh : Keyed.find? key d.table = none)
    (rest : List Char) :
    readLines d (tableLines key (.obj members) ++ rest) =
      readLines ⟨Keyed.insert key
        (.table .header (Table.fill [] (valueNodes (plainEntries f members)))) d.table, [key]⟩
        rest := by
  have hlines : tableLines key (.obj members) ++ rest =
      '\n' :: '[' :: (key.toList ++ ']' :: '\n' :: (entryLines members ++ rest)) := by
    simp [tableLines]
  have hdefine : d.add (.header [key]) =
      some ⟨Keyed.insert key (.table .header []) d.table, [key]⟩ := by
    simp [Draft.add, Table.define, Table.within, hfresh]
  -- What follows changes the table just opened, which is found under its key.
  have hplace : ∀ (inner : Table) (change : Table → Option Table),
      Table.within [key] change (Keyed.insert key (.table .header inner) d.table) =
        (change inner).map fun inner => Keyed.insert key (.table .header inner) d.table := by
    intro inner change
    have hfind : Keyed.find? key (Keyed.insert key (.table .header inner) d.table) =
        some (.table .header inner) := Keyed.find?_update_self _ _ hordered
    simp only [Table.within, hfind, Keyed.insert_insert _ _ _ hordered]
  rw [hlines, readLines_blank, readLines_header hkey, hdefine, Option.bind_some]
  exact readLines_entryLines hplace h (fun _ _ => rfl) rest

/-- Members that can be written and read, and so can the inner tables among them. -/
structure WritableDocument (f : Value → Value) (members : List (String × Value)) : Prop
    extends Writable f members where
  inner : ∀ m ∈ members, ∀ inner ∈ m.2.members?, Writable f inner

theorem WritableDocument.tail (h : WritableDocument f (m :: members)) :
    WritableDocument f members :=
  ⟨h.toWritable.tail, fun m hm => h.inner m (List.mem_cons_of_mem _ hm)⟩

/-- A document of tables is read into these tables, in their order. -/
theorem readLines_tables (h : WritableDocument f members) {d : Draft}
    (hordered : Keyed.Ordered d.table)
    (hfresh : ∀ m ∈ members, m.2.members?.isSome → Keyed.find? m.1 d.table = none) :
    ∃ path, readLines d (members.flatMap fun m => tableLines m.1 m.2) =
      some ⟨d.table.fill (tableNodes (innerTables f members)), path⟩ := by
  induction members generalizing d with
  | nil => exact ⟨d.path, readLines_nil d⟩
  | cons m members ih =>
    obtain ⟨hm, hfresh⟩ := List.forall_mem_cons.mp hfresh
    rw [List.flatMap_cons]
    cases hv : m.2.members? with
    -- A value that is no table has been written above, and leaves no lines here.
    | none =>
      have hskip : innerTables f (m :: members) = innerTables f members := by
        simp [innerTables, hv]
      have hlines : tableLines m.1 m.2 = [] := by
        cases hm2 : m.2 with
        | obj inner =>
          rw [hm2] at hv
          cases hv
        | _ => rfl
      rw [hskip, hlines]
      exact ih h.tail hordered hfresh
    -- The header opens a new table, which leaves the names of the later ones free.
    | some inner =>
      have hkeep : innerTables f (m :: members) =
          (m.1, plainEntries f inner) :: innerTables f members := by
        simp [innerTables, hv]
      have hm2 : m.2 = .obj inner := by
        cases hm2 : m.2 with
        | obj members =>
          rw [hm2] at hv
          cases hv
          rfl
        | _ =>
          rw [hm2] at hv
          cases hv
      rw [hkeep, hm2, readLines_tableLines (h.bare m List.mem_cons_self)
        (h.inner m List.mem_cons_self inner hv) hordered (hm (by simp [hv]))]
      refine ih h.tail (Keyed.ordered_update _ _ hordered) fun m' hm' hm'2 => ?_
      exact (Keyed.find?_update_of_ne _ (h.head_ne m' hm') _).trans (hfresh m' hm' hm'2)

/-! ### Documents -/

/-- The members of a document as they are read: the plain entries and then the inner tables. -/
def shown (f : Value → Value) (members : List (String × Value)) : List (String × Value) :=
  plainEntries f members ++
    (innerTables f members).map fun e => (e.1, .obj (Keyed.ofList e.2))

/-- Closing the entries of a table gives back their values. -/
theorem close_valueNodes (entries : List (String × Value)) :
    (valueNodes entries).map (fun e => (e.1, e.2.close)) = entries := by
  rw [valueNodes, List.map_map]
  exact List.map_id _

/-- Closing the tables of a document gives back their values. -/
theorem close_tableNodes (tables : List (String × List (String × Value))) :
    (tableNodes tables).map (fun e => (e.1, e.2.close)) =
      tables.map fun e => (e.1, .obj (Keyed.ofList e.2)) := by
  rw [tableNodes, List.map_map]
  refine List.map_congr_left fun e _ => ?_
  rw [Function.comp_apply, Node.close, closeEntries_fill, close_valueNodes]

theorem avoids_flatMap {α : Type} {p : Char → Bool} {g : α → List Char} {items : List α}
    (h : ∀ a ∈ items, Avoids p (g a)) : Avoids p (items.flatMap g) := by
  induction items with
  | nil => exact avoids_nil p
  | cons a items ih =>
    obtain ⟨ha, hitems⟩ := List.forall_mem_cons.mp h
    rw [List.flatMap_cons]
    exact ha.append fun _ => ih hitems

/-- No document starts with a mark of byte order. -/
theorem dropOrderMark_document (h : Writable f members) :
    dropOrderMark (document members).toList = (document members).toList := by
  have hentries : Avoids (· == '\uFEFF') (entryLines members) := by
    refine avoids_flatMap fun m hm => ?_
    obtain ⟨c, cs, hcs, hc⟩ := (h.bare m hm).exists_cons
    unfold entryLine
    split
    · rw [hcs]
      exact avoids_cons (p := (· == '\uFEFF')) (beq_false_of_ne (hc _ (by decide))) _
    · exact avoids_nil _
  have htables : Avoids (· == '\uFEFF') (members.flatMap fun m => tableLines m.1 m.2) := by
    refine avoids_flatMap fun m _ => ?_
    unfold tableLines
    split
    · exact avoids_cons (p := (· == '\uFEFF')) (by decide) _
    · exact avoids_nil _
  rw [document, String.toList_ofList]
  -- The document starts with a key, or with the bracket of a header.
  have hstart := hentries.append fun _ => htables
  unfold dropOrderMark
  split
  · next heq =>
    rw [heq] at hstart
    cases hstart _ rfl
  · rfl

/-- Where an inner table is written, no plain entry has its name. -/
theorem find?_valueNodes_of_table (h : Writable f members) (hm : m ∈ members)
    (htable : m.2.members?.isSome) :
    Keyed.find? m.1 (Table.fill [] (valueNodes (plainEntries f members))) = none := by
  refine Table.find?_fill (fun hmem => ?_) []
  obtain ⟨_, hnode, hkey⟩ := List.mem_map.mp hmem
  obtain ⟨e, he, rfl⟩ := List.mem_map.mp hnode
  obtain ⟨m', hm', he⟩ := List.mem_filterMap.mp he
  obtain ⟨cs, hchars, rfl⟩ := Option.map_eq_some_iff.mp he
  -- one key stands for one value
  have hsame : m'.2 = m.2 := by
    have hfind := Keyed.find?_of_mem h.nodup hm
    have hfind' := Keyed.find?_of_mem h.nodup hm'
    rw [show m'.1 = m.1 from hkey, hfind] at hfind'
    exact (Option.some.inj hfind').symm
  rw [hsame] at hchars
  cases hv : m.2 with
  | obj inner =>
    rw [hv] at hchars
    cases hchars
  | _ =>
    rw [hv] at htable
    cases htable

/-- There is a document of numbers that are in range. -/
theorem document?_of_all {members : List (String × Value)}
    (h : ((members ++ members.flatMap fun m => m.2.members?.getD []).all
      fun m => inRange m.2) = true) :
    document? members = some (document members) := by
  rw [document?, if_pos h]

/-- A number that is out of range leaves no document at all. -/
theorem document?_of_not_all {members : List (String × Value)}
    (h : ((members ++ members.flatMap fun m => m.2.members?.getD []).all
      fun m => inRange m.2) = false) :
    document? members = none := by
  rw [document?, if_neg (Bool.eq_false_iff.mp h)]

/-- A document comes back, but for the entries without a plain value. -/
theorem parse?_document (h : WritableDocument f members) :
    parse? (document members) = some (Keyed.ofList (shown f members)) := by
  have hplace : ∀ inner change, (id inner : Table).within [] change = (change inner).map id := by
    simp [Table.within]
  have hentries := readLines_entryLines hplace h.toWritable (t := []) (fun _ _ => rfl)
    (members.flatMap fun m => tableLines m.1 m.2)
  obtain ⟨path, htables⟩ := readLines_tables h
    (d := ⟨Table.fill [] (valueNodes (plainEntries f members)), []⟩)
    (Table.ordered_fill Keyed.ordered_nil _)
    fun m hm htable => find?_valueNodes_of_table h.toWritable hm htable
  have hread : readLines {} (document members).toList = some ⟨Table.fill []
      (valueNodes (plainEntries f members) ++ tableNodes (innerTables f members)), path⟩ := by
    rw [document, String.toList_ofList, Table.fill_append]
    exact hentries.trans htables
  rw [parse?, dropOrderMark_document h.toWritable, hread, Option.map_some, closeEntries_fill,
    List.map_append, close_valueNodes, close_tableNodes, shown]

end Members

end PolyLex.Toml
