import PolyLex.Proofs.Files.Tree

/-!
# Trees and their outlines

Commands that make directories and put one content into files leave a tree that is compared with its
outline: the tree in which the directories were made and no file was put. A file that is put may be
in the way of a directory, so the tree may lack some directories of the outline; it has none that
the outline lacks. What is read of the tree is the content that was put or what is read of the
outline (`Tree.Written.read`), and what is found in it is found in the outline as well
(`Tree.Written.find?`).

Where files are put only where there is none, all that was there is kept (`Tree.Kept`).
-/

namespace PolyLex.Files

namespace Node

/-- A tree and its outline. The tree may lack directories of the outline, and files of one content
were put there. -/
structure Written (content : Content) (outline node : Node) : Prop where
  directories : ∀ names, node.IsDirectory names → outline.IsDirectory names
  /-- A file of the outline is a file, whatever it holds. -/
  files : ∀ names held, outline.Holds names held → ∃ held', node.Holds names held'
  contents : ∀ names held, node.Holds names held → held = content ∨ outline.Holds names held

namespace Written

variable {content : Content} {outline node node' : Node}

theorem refl (content : Content) (node : Node) : Written content node node :=
  ⟨fun _ h => h, fun _ held h => ⟨held, h⟩, fun _ _ h => .inr h⟩

/-- More directories may be made in the outline. -/
theorem grow (h : Written content outline node) (back parts : List String) :
    Written content (Tree.makeDirectories outline back parts).1 node where
  directories names hnames := Tree.isDirectory_makeDirectories _ _ _ (h.directories names hnames)
  files names held hheld := h.files names held ((Tree.holds_makeDirectories _ _ _ _ _).mp hheld)
  contents names held hheld := (h.contents names held hheld).imp_right
    (Tree.holds_makeDirectories _ _ _ _ _).mpr

/-- A directory that is made in the tree is there in the outline, or it can be made there. -/
theorem addDirectory (h : Written content outline node) {names : List String} {name : String}
    (hnone : ∀ child, node.get (names ++ [name]) ≠ .ok child)
    (hadd : node.addDirectory (names ++ [name]) = .ok node') :
    (outline.IsDirectory (names ++ [name]) ∧ Written content outline node') ∨
    ((∀ child, outline.get (names ++ [name]) ≠ .ok child) ∧
      ∃ outline', outline.addDirectory (names ++ [name]) = .ok outline' ∧
        Written content outline' node') := by
  have hfiles : ∀ other held, outline.Holds other held → ∃ held', node'.Holds other held' := by
    intro other held hheld
    obtain ⟨held', hheld'⟩ := h.files other held hheld
    exact ⟨held', (holds_addDirectory hadd other held').mpr hheld'⟩
  have hcontents : ∀ other held, node'.Holds other held → held = content ∨ outline.Holds other held :=
    fun other held hheld => h.contents other held ((holds_addDirectory hadd other held).mp hheld)
  have hdirectories : ∀ other, node'.IsDirectory other →
      outline.IsDirectory other ∨ other = names ++ [name] := fun other hother =>
    ((isDirectory_addDirectory hadd other).mp hother).imp_left (h.directories other)
  cases hget : outline.get (names ++ [name]) with
  | ok child =>
    cases child with
    -- A file of the outline is a file of the tree, where a directory could not be made.
    | file held =>
      obtain ⟨held', hheld'⟩ := h.files _ held hget
      exact absurd hheld' (hnone _)
    -- What the tree makes anew is in the outline already.
    | directory entries =>
      have hthere : outline.IsDirectory (names ++ [name]) := ⟨entries, hget⟩
      refine .inl ⟨hthere, fun other hother => ?_, hfiles, hcontents⟩
      exact (hdirectories other hother).elim id fun heq => heq ▸ hthere
  -- The parent is a directory of the outline as well, so the outline makes the same one.
  | error problem =>
    have hparent := h.directories names (isDirectory_of_addDirectory hadd)
    have hnothing : ∀ child, outline.get (names ++ [name]) ≠ .ok child := by simp [hget]
    obtain ⟨outline', hmade⟩ := exists_addDirectory hparent hnothing
    refine .inr ⟨by simp, outline', hmade, fun other hother => ?_, fun other held hheld => ?_,
      fun other held hheld => ?_⟩
    · exact (isDirectory_addDirectory hmade other).mpr (hdirectories other hother)
    · exact hfiles other held ((holds_addDirectory hmade other held).mp hheld)
    · exact (hcontents other held hheld).imp_right (holds_addDirectory hmade other held).mpr

/-- Where a way of directories ends in the tree, because a file was put there, it may go on in the
outline. -/
theorem makeDirectories (h : Written content outline node) (back parts : List String) :
    Written content (Tree.makeDirectories outline back parts).1
      (Tree.makeDirectories node back parts).1 := by
  fun_induction Tree.makeDirectories node back parts generalizing outline with
  | case1 => exact h
  | case2 node back rest ih => exact ih h
  | case3 node back name rest hname names entries hget =>
    rename_i ih
    rw [Tree.makeDirectories_of_isDirectory hname (h.directories _ ⟨entries, hget⟩)]
    exact ih h
  | case4 => exact h.grow _ _
  | case5 node back name rest hname names problem hget node' hadd =>
    rename_i ih
    rw [show names = back.reverse ++ [name] from List.reverse_cons] at hget hadd
    -- The outline has the directory already, or makes it now.
    rcases h.addDirectory (by simp [hget]) hadd with ⟨hthere, hnext⟩ | ⟨hnone, outline', hmade, hnext⟩
    · rw [← List.reverse_cons] at hthere
      rw [Tree.makeDirectories_of_isDirectory hname hthere]
      exact ih hnext
    · rw [← List.reverse_cons] at hnone hmade
      rw [Tree.makeDirectories_of_addDirectory hname hnone hmade]
      exact ih hnext
  | case6 => exact h.grow _ _

/-- Putting the content somewhere is no concern of the outline. -/
theorem put (h : Written content outline node) {names : List String}
    (hput : node.put content names = .ok node') : Written content outline node' where
  directories other hother := h.directories other ((isDirectory_put hput other).mp hother)
  files other held hheld := by
    obtain ⟨held', hheld'⟩ := h.files other held hheld
    by_cases hsame : other = names
    · exact ⟨content, (holds_put hput other content).mpr (by simp [hsame])⟩
    · exact ⟨held', (holds_put hput other held').mpr (by simpa [hsame] using hheld')⟩
  contents other held hheld := by
    have hheld := (holds_put hput other held).mp hheld
    split at hheld
    · exact .inl hheld
    · exact h.contents other held hheld

end Written

end Node

namespace Tree

/-- A tree and its outline, with runs in the same directory. -/
structure Written (content : Content) (outline tree : Tree) : Prop where
  place : tree.directory = outline.directory
  root : Node.Written content outline.root tree.root

namespace Written

variable {content held : Content} {outline tree : Tree} {path : String}

theorem refl (content : Content) (tree : Tree) : Written content tree tree := ⟨rfl, .refl _ _⟩

/-- More directories may be made in the outline. -/
theorem grow (h : Written content outline tree) (directory : String) :
    Written content (outline.reach directory).1 tree := ⟨h.place, h.root.grow _ _⟩

/-- Making the directories of a path keeps a tree written over its outline. -/
theorem reach (h : Written content outline tree) (directory : String) :
    Written content (outline.reach directory).1 (tree.reach directory).1 := by
  have hstart : tree.start directory = outline.start directory := by
    rw [start, start, h.place]
  refine ⟨h.place, ?_⟩
  show Node.Written content (makeDirectories _ _ _).1 (makeDirectories _ _ _).1
  rw [hstart]
  exact h.root.makeDirectories _ _

/-- So does one more file of the same content. -/
theorem write (h : Written content outline tree) {tree' : Tree}
    (hwrite : tree.write path content = .ok tree') : Written content outline tree' := by
  obtain ⟨-, _, _, -, hput, rfl⟩ := exists_of_write hwrite
  exact ⟨h.place, h.root.put hput⟩

/-- A path leads to the same place in the outline. -/
theorem locate (h : Written content outline tree) {names : List String}
    (hlocate : tree.locate path = .ok names) : outline.locate path = .ok names := by
  unfold Tree.locate at hlocate ⊢
  split at hlocate
  · cases hlocate
  · next hpath =>
    have hstart : tree.start path = outline.start path := by
      rw [start, start, h.place]
    rw [if_neg hpath, ← hstart]
    exact follow_mono h.root.directories hlocate

/-- What is read is what was put, or what the outline has. -/
theorem read (h : Written content outline tree) (hread : tree.read path = .ok held) :
    held = content ∨ outline.read path = .ok held := by
  obtain ⟨hpath, names, hlocate, hheld⟩ := read_eq_ok_iff.mp hread
  exact (h.root.contents names held hheld).imp_right fun hheld =>
    read_eq_ok_iff.mpr ⟨hpath, names, h.locate hlocate, hheld⟩

/-- A path leads to something in the outline already, or to a file of that content. -/
theorem has (h : Written content outline tree) (hhas : tree.has path = true) :
    outline.has path = true ∨ tree.read path = .ok content := by
  rcases has_iff.mp hhas with ⟨names, hlocate, hdirectory⟩ | ⟨held, hread⟩
  · exact .inl (has_iff.mpr (.inl ⟨names, h.locate hlocate, h.root.directories names hdirectory⟩))
  · rcases h.read hread with rfl | houtline
    · exact .inr hread
    · exact .inl (has_iff.mpr (.inr ⟨held, houtline⟩))

/-- What is found is the content, or something is found in the outline too. -/
theorem find? (h : Written content outline tree) (hfind : tree.find? path = some held) :
    held = content ∨ (outline.find? path).isSome := by
  have hplaces : tree.places = outline.places := by
    rw [places, places, h.place]
  unfold Tree.find? at hfind ⊢
  dsimp only at hfind ⊢
  rw [h.place, hplaces] at hfind
  obtain ⟨directory, hmem, hread⟩ := List.exists_of_findSome?_eq_some hfind
  -- The two trees correspond from every directory of the search.
  have hmoved : Written content { outline with directory } { tree with directory } := ⟨rfl, h.root⟩
  cases hat : Tree.read { tree with directory } path with
  | error problem =>
    rw [hat] at hread
    cases hread
  | ok found =>
    rw [hat] at hread
    cases hread
    refine (hmoved.read hat).imp_right fun houtline => ?_
    exact List.findSome?_isSome_iff.mpr ⟨directory, hmem, by rw [houtline]; rfl⟩

end Written

end Tree

/-! ### What is kept -/

namespace Tree

/-- All directories are there still, each file holds what it held, and runs are in the same
directory. -/
structure Kept (before after : Tree) : Prop where
  place : after.directory = before.directory
  directories : ∀ names, before.root.IsDirectory names → after.root.IsDirectory names
  contents : ∀ names held, before.root.Holds names held → after.root.Holds names held

namespace Kept

variable {before between after : Tree} {path : String} {held content : Content}

theorem refl (tree : Tree) : Kept tree tree := ⟨rfl, fun _ h => h, fun _ _ h => h⟩

theorem trans (h : Kept before between) (h' : Kept between after) : Kept before after :=
  ⟨h'.place.trans h.place, fun names hnames => h'.directories names (h.directories names hnames),
    fun names held hheld => h'.contents names held (h.contents names held hheld)⟩

/-- To make directories leaves each file as it is. -/
theorem of_reach (tree : Tree) (directory : String) : Kept tree (tree.reach directory).1 :=
  ⟨rfl, fun _ hnames => isDirectory_makeDirectories _ _ _ hnames,
    fun _ _ hheld => (holds_makeDirectories _ _ _ _ _).mpr hheld⟩

/-- A file is put where there is none. -/
theorem of_write (hwrite : before.write path content = .ok after) (hnone : before.has path = false) :
    Kept before after := by
  obtain ⟨hpath, names, root', hlocate, hput, rfl⟩ := exists_of_write hwrite
  refine ⟨rfl, fun other hother => (Node.isDirectory_put hput other).mpr hother,
    fun other held hheld => (Node.holds_put hput other held).mpr ?_⟩
  split
  · next hsame =>
    subst hsame
    have hread : before.read path = .ok held := read_eq_ok_iff.mpr ⟨hpath, other, hlocate, hheld⟩
    rw [has_iff.mpr (.inr ⟨held, hread⟩)] at hnone
    cases hnone
  · exact hheld

/-- A file that is kept is read as before. -/
theorem read (h : Kept before after) (hread : before.read path = .ok held) :
    after.read path = .ok held := by
  obtain ⟨hpath, names, hlocate, hheld⟩ := read_eq_ok_iff.mp hread
  refine read_eq_ok_iff.mpr ⟨hpath, names, ?_, h.contents names held hheld⟩
  unfold locate at hlocate ⊢
  split at hlocate
  · cases hlocate
  · next hempty =>
    rw [if_neg hempty, start, h.place]
    exact follow_mono h.directories hlocate

end Kept

end Tree

end PolyLex.Files
