import PolyLex.Files.Tree
import PolyLex.Proofs.Text.Parts

/-!
# What operations leave of a tree

To make a directory adds it and leaves all else (`isDirectory_addDirectory`, `holds_addDirectory`);
to put a file changes what is held there and nothing else (`isDirectory_put`, `holds_put`). A path
leads through directories, so it leads to the same place when directories are added (`follow_mono`),
and what leads through some directories shows that they need not be made (`reach_of_has`).
-/

namespace PolyLex.Files

/-! ### Paths -/

section Paths

variable (directory : String) {path : String}

/-- A slash separates parts. -/
theorem parts_slash (front back : List Char) :
    parts (String.ofList (front ++ '/' :: back)) =
      parts (String.ofList front) ++ parts (String.ofList back) := by
  simp only [parts, String.toList_ofList, Text.splitBy_mark (p := (· == '/')) (c := '/') rfl,
    List.filterMap_append]

/-- A path seen from a directory is the directory, a slash and the path. -/
theorem exists_join (hpath : isAbsolute path = false) :
    (directory = "" ∧ join directory path = path) ∨
    ∃ front, parts directory = parts (String.ofList front) ∧
      isAbsolute directory = isAbsolute (String.ofList (front ++ ['/'])) ∧
      join directory path = String.ofList (front ++ '/' :: path.toList) := by
  unfold join
  rw [hpath, Bool.false_or]
  split
  · next hempty => exact .inl ⟨String.isEmpty_iff.mp hempty, rfl⟩
  · next hempty =>
    right
    split
    -- A slash at the end of the directory is used as the separator.
    · next hlast =>
      obtain ⟨front, hfront⟩ := List.getLast?_eq_some_iff.mp hlast
      have hdirectory : directory = String.ofList (front ++ ['/']) := by
        rw [← hfront, String.ofList_toList]
      refine ⟨front, ?_, by rw [hdirectory], ?_⟩
      · rw [hdirectory, parts_slash]
        exact List.append_nil _
      · rw [← String.ofList_toList (s := directory ++ path), String.toList_append, hfront]
        simp
    -- Otherwise a slash is put between.
    · refine ⟨directory.toList, by rw [String.ofList_toList], ?_, ?_⟩
      · obtain ⟨c, cs, hcs⟩ : ∃ c cs, directory.toList = c :: cs :=
          List.exists_cons_of_ne_nil (by simpa using hempty)
        simp [isAbsolute, hcs]
      · rw [← String.ofList_toList (s := directory ++ "/" ++ path)]
        simp

/-- The parts of a path that is seen from a directory. -/
theorem parts_join (hpath : isAbsolute path = false) :
    parts (join directory path) = parts directory ++ parts path := by
  rcases exists_join directory hpath with ⟨rfl, hjoin⟩ | ⟨front, hparts, -, hjoin⟩
  · rw [hjoin]
    rfl
  · rw [hjoin, hparts, parts_slash, String.ofList_toList]

/-- Behind a directory, a relative path is absolute just if the directory is. -/
theorem isAbsolute_join (hpath : isAbsolute path = false) :
    isAbsolute (join directory path) = isAbsolute directory := by
  rcases exists_join directory hpath with ⟨rfl, hjoin⟩ | ⟨front, -, habsolute, hjoin⟩
  · rw [hjoin, hpath]
    rfl
  · rw [hjoin, habsolute]
    cases front <;> simp [isAbsolute]

end Paths

namespace Node

/-- A directory stands where some names lead. -/
def IsDirectory (node : Node) (names : List String) : Prop :=
  ∃ entries, node.get names = .ok (.directory entries)

/-- A file with some content stands where some names lead. -/
def Holds (node : Node) (names : List String) (content : Content) : Prop :=
  node.get names = .ok (.file content)

theorem get_of_find?_eq_some {name : String} {entries : List (String × Node)} {child : Node}
    (h : Keyed.find? name entries = some child) (names : List String) :
    (directory entries).get (name :: names) = child.get names := by
  simp only [get, h]

theorem get_of_find?_eq_none {name : String} {entries : List (String × Node)}
    (h : Keyed.find? name entries = none) (names : List String) :
    (directory entries).get (name :: names) = .error .notFound := by
  simp only [get, h]

/-- Below an entry that was put in, there is what it holds. -/
theorem get_insert_self (name : String) (child : Node) (entries : List (String × Node))
    (names : List String) :
    (directory (Keyed.insert name child entries)).get (name :: names) = child.get names :=
  get_of_find?_eq_some (Keyed.find?_insert_self name child entries) names

/-- Below the other entries there is what was there before. -/
theorem get_insert_of_ne {name other : String} (h : name ≠ other) (child : Node)
    (entries : List (String × Node)) (names : List String) :
    (directory (Keyed.insert name child entries)).get (other :: names) =
      (directory entries).get (other :: names) := by
  have hfind : Keyed.find? other (Keyed.insert name child entries) = Keyed.find? other entries :=
    Keyed.find?_update_of_ne _ h entries
  simp only [get, hfind]

theorem isDirectory_nil (entries : List (String × Node)) : (directory entries).IsDirectory [] :=
  ⟨entries, rfl⟩

/-! ### Making one directory -/

/-- A directory is made in one that is there, or within an entry of it. -/
theorem addDirectory_cons {entries : List (String × Node)} {name : String} {names : List String}
    {root' : Node} (h : (directory entries).addDirectory (name :: names) = .ok root') :
    ∃ child', root' = directory (Keyed.insert name child' entries) ∧
      ((Keyed.find? name entries = none ∧ names = [] ∧ child' = empty) ∨
        ∃ child, Keyed.find? name entries = some child ∧ child.addDirectory names = .ok child') := by
  unfold addDirectory at h
  dsimp only at h
  split at h
  · next hfind =>
    cases h
    exact ⟨empty, rfl, .inl ⟨hfind, rfl, rfl⟩⟩
  · cases h
  · next rest _ _ child hfind =>
    cases hchild : child.addDirectory rest with
    | error problem =>
      rw [hchild] at h
      cases h
    | ok child' =>
      rw [hchild] at h
      cases h
      exact ⟨child', rfl, .inr ⟨child, hfind, hchild⟩⟩

theorem isDirectory_addDirectory {root root' : Node} {names : List String}
    (h : root.addDirectory names = .ok root') (other : List String) :
    root'.IsDirectory other ↔ root.IsDirectory other ∨ other = names := by
  induction names generalizing root root' other with
  | nil => cases h
  | cons name names ih =>
    cases root with
    | file content => cases h
    | directory entries =>
      obtain ⟨child', rfl, hchild⟩ := addDirectory_cons h
      cases other with
      | nil => simp [isDirectory_nil]
      | cons first other =>
        by_cases hname : name = first
        -- On the path of the new directory: it is new here, or further down.
        · subst hname
          rw [List.cons.injEq, IsDirectory, IsDirectory, get_insert_self]
          rcases hchild with ⟨hfind, rfl, rfl⟩ | ⟨child, hfind, hchild⟩
          · rw [get_of_find?_eq_none hfind]
            cases other <;> simp [get, empty, Keyed.find?]
          · rw [get_of_find?_eq_some hfind]
            simpa [IsDirectory] using ih hchild other
        · rw [IsDirectory, IsDirectory, get_insert_of_ne hname]
          simp [Ne.symm hname]

/-- A new directory leaves each file as it is. -/
theorem holds_addDirectory {root root' : Node} {names : List String}
    (h : root.addDirectory names = .ok root') (other : List String) (content : Content) :
    root'.Holds other content ↔ root.Holds other content := by
  induction names generalizing root root' other with
  | nil => cases h
  | cons name names ih =>
    cases root with
    | file content => cases h
    | directory entries =>
      obtain ⟨child', rfl, hchild⟩ := addDirectory_cons h
      cases other with
      | nil => simp [Holds, get]
      | cons first other =>
        by_cases hname : name = first
        · subst hname
          rw [Holds, Holds, get_insert_self]
          rcases hchild with ⟨hfind, rfl, rfl⟩ | ⟨child, hfind, hchild⟩
          · rw [get_of_find?_eq_none hfind]
            cases other <;> simp [get, empty, Keyed.find?]
          · rw [get_of_find?_eq_some hfind]
            exact ih hchild other
        · rw [Holds, Holds, get_insert_of_ne hname]

/-- A directory is only made in another. -/
theorem isDirectory_of_addDirectory {root root' : Node} {names : List String} {name : String}
    (h : root.addDirectory (names ++ [name]) = .ok root') : root.IsDirectory names := by
  induction names generalizing root root' with
  | nil =>
    cases root with
    | file content => cases h
    | directory entries => exact isDirectory_nil entries
  | cons first names ih =>
    cases root with
    | file content => cases h
    | directory entries =>
      obtain ⟨_, -, ⟨-, hnil, -⟩ | ⟨child, hfind, hchild⟩⟩ := addDirectory_cons h
      · simp at hnil
      · rw [IsDirectory, get_of_find?_eq_some hfind]
        exact ih hchild

/-- Where nothing stands in a directory, one can be made. -/
theorem exists_addDirectory {root : Node} {names : List String} {name : String}
    (hparent : root.IsDirectory names) (hnone : ∀ node, root.get (names ++ [name]) ≠ .ok node) :
    ∃ root', root.addDirectory (names ++ [name]) = .ok root' := by
  induction names generalizing root with
  | nil =>
    obtain ⟨entries, hentries⟩ := hparent
    cases hentries
    cases hfind : Keyed.find? name entries with
    | none => exact ⟨_, by simp [addDirectory, hfind]; rfl⟩
    | some child =>
      -- The name is free, or something would be found there.
      exact absurd (get_of_find?_eq_some hfind []) (hnone child)
  | cons first names ih =>
    obtain ⟨inner, hinner⟩ := hparent
    cases root with
    | file content => cases hinner
    | directory entries =>
      cases hfind : Keyed.find? first entries with
      | none =>
        rw [get_of_find?_eq_none hfind] at hinner
        cases hinner
      | some child =>
        rw [get_of_find?_eq_some hfind] at hinner
        rw [List.cons_append, get_of_find?_eq_some hfind] at hnone
        obtain ⟨child', hchild⟩ := ih ⟨inner, hinner⟩ hnone
        exact ⟨_, by simp [addDirectory, hfind, hchild, bind, Except.bind]; rfl⟩

/-! ### Putting a file -/

/-- A file is put in a directory that is there, or within an entry of it. -/
theorem put_cons {content : Content} {entries : List (String × Node)} {name : String}
    {names : List String} {root' : Node}
    (h : (directory entries).put content (name :: names) = .ok root') :
    ∃ child', root' = directory (Keyed.insert name child' entries) ∧
      ((Keyed.find? name entries = none ∧ names = [] ∧ child' = file content) ∨
        ∃ child, Keyed.find? name entries = some child ∧ child.put content names = .ok child') := by
  unfold put at h
  dsimp only at h
  split at h
  · next hfind =>
    cases h
    exact ⟨file content, rfl, .inl ⟨hfind, rfl, rfl⟩⟩
  · cases h
  · next rest _ _ child hfind =>
    cases hchild : child.put content rest with
    | error problem =>
      rw [hchild] at h
      cases h
    | ok child' =>
      rw [hchild] at h
      cases h
      exact ⟨child', rfl, .inr ⟨child, hfind, hchild⟩⟩

/-- A new file leaves the directories as they are. -/
theorem isDirectory_put {content : Content} {root root' : Node} {names : List String}
    (h : root.put content names = .ok root') (other : List String) :
    root'.IsDirectory other ↔ root.IsDirectory other := by
  induction names generalizing root root' other with
  | nil =>
    cases root with
    | file old =>
      cases h
      cases other <;> simp [IsDirectory, get]
    | directory entries => cases h
  | cons name names ih =>
    cases root with
    | file old => cases h
    | directory entries =>
      obtain ⟨child', rfl, hchild⟩ := put_cons h
      cases other with
      | nil => simp [isDirectory_nil]
      | cons first other =>
        by_cases hname : name = first
        -- Along the path: what was made there is a file, and the rest is by induction.
        · subst hname
          rw [IsDirectory, IsDirectory, get_insert_self]
          rcases hchild with ⟨hfind, rfl, rfl⟩ | ⟨child, hfind, hchild⟩
          · rw [get_of_find?_eq_none hfind]
            cases other <;> simp [get]
          · rw [get_of_find?_eq_some hfind]
            exact ih hchild other
        · rw [IsDirectory, IsDirectory, get_insert_of_ne hname]

theorem holds_put {content : Content} {root root' : Node} {names : List String}
    (h : root.put content names = .ok root') (other : List String) (held : Content) :
    root'.Holds other held ↔
      if other = names then held = content else root.Holds other held := by
  induction names generalizing root root' other with
  | nil =>
    cases root with
    | file old =>
      cases h
      cases other <;> simp [Holds, get, eq_comm]
    | directory entries => cases h
  | cons name names ih =>
    cases root with
    | file old => cases h
    | directory entries =>
      obtain ⟨child', rfl, hchild⟩ := put_cons h
      cases other with
      | nil => simp [Holds, get]
      | cons first other =>
        by_cases hname : name = first
        -- Along the path the two trees differ at its end only.
        · subst hname
          rw [Holds, Holds, get_insert_self]
          rcases hchild with ⟨hfind, rfl, rfl⟩ | ⟨child, hfind, hchild⟩
          · rw [get_of_find?_eq_none hfind]
            cases other <;> simp [get, eq_comm]
          · rw [get_of_find?_eq_some hfind]
            simpa [Holds] using ih hchild other
        · rw [Holds, Holds, get_insert_of_ne hname]
          simp [Ne.symm hname]

end Node

namespace Tree

open Node (get_of_find?_eq_some)

/-! ### Making directories -/

section Directories

variable (root : Node) (back parts : List String)

theorem isDirectory_makeDirectories {names : List String} (h : root.IsDirectory names) :
    (makeDirectories root back parts).1.IsDirectory names := by
  fun_induction makeDirectories root back parts with
  | case1 => exact h
  | case2 _ _ _ ih => exact ih h
  | case3 _ _ _ _ _ _ _ _ ih => exact ih h
  | case4 => exact h
  | case5 _ _ _ _ _ _ _ _ _ hadd ih => exact ih ((Node.isDirectory_addDirectory hadd _).mpr (.inl h))
  | case6 => exact h

theorem holds_makeDirectories (names : List String) (content : Content) :
    (makeDirectories root back parts).1.Holds names content ↔ root.Holds names content := by
  fun_induction makeDirectories root back parts with
  | case1 => rfl
  | case2 _ _ _ ih => exact ih
  | case3 _ _ _ _ _ _ _ _ ih => exact ih
  | case4 => rfl
  | case5 _ _ _ _ _ _ _ _ _ hadd ih => exact ih.trans (Node.holds_addDirectory hadd _ _)
  | case6 => rfl

end Directories

section Steps

variable {root root' : Node} {back : List String} {name : String} (hname : name ≠ "..")
include hname

/-- A directory that is there need not be made. -/
theorem makeDirectories_of_isDirectory (h : root.IsDirectory (name :: back).reverse)
    (rest : List String) :
    makeDirectories root back (name :: rest) = makeDirectories root (name :: back) rest := by
  obtain ⟨entries, hentries⟩ := h
  rw [makeDirectories.eq_3 _ _ _ _ hname, hentries]

/-- A directory that is missing is made before the rest of the path is looked at. -/
theorem makeDirectories_of_addDirectory (hnone : ∀ node, root.get (name :: back).reverse ≠ .ok node)
    (hadd : root.addDirectory (name :: back).reverse = .ok root') (rest : List String) :
    makeDirectories root back (name :: rest) = makeDirectories root' (name :: back) rest := by
  rw [makeDirectories.eq_3 _ _ _ _ hname]
  cases hget : root.get (name :: back).reverse with
  | ok node => exact absurd hget (hnone node)
  | error problem => rw [hadd]

end Steps

/-- A directory in which a path leads to something need not be made. -/
theorem makeDirectories_of_follow {root : Node} {back parts names : List String} {name : String}
    (h : follow root back (parts ++ [name]) = .ok names) :
    makeDirectories root back parts = (root, none) := by
  induction parts generalizing back with
  | nil => rfl
  | cons part parts ih =>
    by_cases hpart : part = ".."
    · subst hpart
      rw [List.cons_append, follow] at h
      rw [makeDirectories]
      exact ih h
    -- A part on the way is followed into a directory only.
    · rw [List.cons_append, follow.eq_4 _ _ _ _ hpart (by simp)] at h
      split at h
      · next entries hget =>
        rw [makeDirectories_of_isDirectory hpart ⟨entries, hget⟩]
        exact ih h
      · cases h
      · cases h

/-! ### Where paths lead -/

/-- A path still leads where it did when directories have been added. -/
theorem follow_mono {root root' : Node}
    (h : ∀ names, root.IsDirectory names → root'.IsDirectory names) {back parts names : List String}
    (hfollow : follow root back parts = .ok names) : follow root' back parts = .ok names := by
  fun_induction follow root back parts with
  | case1 => exact hfollow
  | case2 back rest ih => exact ih hfollow
  | case3 back name hname =>
    rw [follow.eq_3 _ _ _ hname]
    exact hfollow
  | case4 back name rest hname hrest entries hget ih =>
    obtain ⟨entries', hentries'⟩ := h _ ⟨entries, hget⟩
    rw [follow.eq_4 _ _ _ _ hname hrest, hentries']
    exact ih hfollow
  | case5 => cases hfollow
  | case6 => cases hfollow

variable {tree : Tree} {path : String} {content : Content}

/-- A path with a slash at its end leads to directories only. -/
theorem get_eq_ok_iff {node : Node} : tree.get path = .ok node ↔ ∃ names,
    tree.locate path = .ok names ∧ tree.root.get names = .ok node ∧
      ((∃ content, node = .file content) → isDirectoryPath path = false) := by
  unfold get
  cases hlocate : tree.locate path with
  | error problem => simp [bind, Except.bind]
  | ok names =>
    cases hnode : tree.root.get names with
    | error problem => simp [bind, Except.bind, hnode]
    | ok found =>
      cases found with
      | directory entries =>
        simp only [bind, Except.bind, Except.ok.injEq, exists_eq_left', hnode]
        constructor
        · rintro rfl
          exact ⟨rfl, nofun⟩
        · exact fun h => h.1
      -- A slash at the end asks for a directory.
      | file content =>
        simp only [bind, Except.bind, Except.ok.injEq, exists_eq_left', hnode]
        cases isDirectoryPath path with
        | false => simp
        | true =>
          simp only [if_true, reduceCtorEq, false_iff]
          rintro ⟨rfl, h⟩
          cases h ⟨content, rfl⟩

/-- A file is read from the place to which its path leads. -/
theorem read_eq_ok_iff : tree.read path = .ok content ↔ isDirectoryPath path = false ∧
    ∃ names, tree.locate path = .ok names ∧ tree.root.Holds names content := by
  have hfile : tree.read path = .ok content ↔ tree.get path = .ok (.file content) := by
    unfold read
    cases tree.get path with
    | error problem => simp [bind, Except.bind]
    | ok node => cases node <;> simp [bind, Except.bind]
  rw [hfile, get_eq_ok_iff]
  constructor
  · rintro ⟨names, hlocate, hget, hpath⟩
    exact ⟨hpath ⟨content, rfl⟩, names, hlocate, hget⟩
  · rintro ⟨hpath, names, hlocate, hget⟩
    exact ⟨names, hlocate, hget, fun _ => hpath⟩

/-- A path leads to something just if it leads to a directory or to a file that can be read. -/
theorem has_iff : tree.has path = true ↔
    (∃ names, tree.locate path = .ok names ∧ tree.root.IsDirectory names) ∨
      ∃ content, tree.read path = .ok content := by
  have hget : tree.has path = true ↔ ∃ node, tree.get path = .ok node := by
    rw [has]
    cases tree.get path <;> simp [Except.isOk, Except.toBool]
  simp only [hget, get_eq_ok_iff, read_eq_ok_iff]
  constructor
  · rintro ⟨node, names, hlocate, hnode, hpath⟩
    cases node with
    | directory entries => exact .inl ⟨names, hlocate, entries, hnode⟩
    | file content => exact .inr ⟨content, hpath ⟨content, rfl⟩, names, hlocate, hnode⟩
  · rintro (⟨names, hlocate, entries, hentries⟩ | ⟨content, hpath, names, hlocate, hheld⟩)
    · exact ⟨_, names, hlocate, hentries, nofun⟩
    · exact ⟨_, names, hlocate, hheld, fun _ => hpath⟩

/-- The directory of the run is the first in which a file is looked for. -/
theorem find?_of_read (h : tree.read path = .ok content) : tree.find? path = some content := by
  have hplaces : tree.places = tree.directory ::
      ((List.range tree.directory.length).map Nat.succ).map fun n =>
        tree.directory.take (tree.directory.length - n) := by
    rw [places, List.range_succ_eq_map, List.map_cons, Nat.sub_zero, List.take_length]
  have hhead : (read { tree with directory := tree.directory } path).toOption = some content := by
    show (tree.read path).toOption = some content
    rw [h]
    rfl
  unfold find?
  dsimp only
  split
  · rw [List.findSome?_cons, hhead]
  · rw [hplaces, List.findSome?_cons, hhead]

/-- A directory in which something is found need not be made. -/
theorem reach_of_has {directory name : String} (hpath : isAbsolute path = false)
    (hparts : parts path = [name]) (h : tree.has (join directory path) = true) :
    tree.reach directory = (tree, none) := by
  obtain ⟨names, hlocate⟩ : ∃ names, tree.locate (join directory path) = .ok names := by
    rcases has_iff.mp h with ⟨names, hlocate, -⟩ | ⟨content, hread⟩
    · exact ⟨names, hlocate⟩
    · obtain ⟨-, names, hlocate, -⟩ := read_eq_ok_iff.mp hread
      exact ⟨names, hlocate⟩
  have hstart : tree.start (join directory path) = tree.start directory := by
    rw [start, start, isAbsolute_join directory hpath]
  unfold locate at hlocate
  split at hlocate
  · cases hlocate
  · rw [hstart, parts_join directory hpath, hparts] at hlocate
    rw [reach, makeDirectories_of_follow hlocate]

/-- The tree after a file was written. -/
theorem exists_of_write {tree' : Tree} (h : tree.write path content = .ok tree') :
    isDirectoryPath path = false ∧ ∃ names root', tree.locate path = .ok names ∧
      tree.root.put content names = .ok root' ∧ tree' = { tree with root := root' } := by
  unfold write at h
  split at h
  · cases h
  · next hpath =>
    cases hlocate : tree.locate path with
    | error problem => simp [hlocate, bind, Except.bind] at h
    | ok names =>
      cases hput : tree.root.put content names with
      | error problem => simp [hlocate, hput, bind, Except.bind] at h
      | ok root' =>
        simp only [hlocate, hput, bind, Except.bind, pure, Except.pure, Except.ok.injEq] at h
        exact ⟨by simpa using hpath, names, root', rfl, hput, h.symm⟩

end Tree

end PolyLex.Files
