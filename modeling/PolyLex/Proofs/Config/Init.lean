import PolyLex.Proofs.Config.Store
import PolyLex.Proofs.Config.Template
import PolyLex.Proofs.Files.Outline
import PolyLex.Url.Domain

/-!
# What writing the template changes

Commands write the template to the two files that are loaded, or to others. As the template says
what the defaults say, a load is the same after any such commands, be it a configuration or an error
(`load_runAll`), if no other file can be found at the two paths. It may be found once a directory on
the way is made, so that is asked of the outline, the tree in which the commands made directories
only.

Commands that do not replace files keep what is there, and where their files are there they change
nothing.
-/

namespace PolyLex.Config

open Json (Value)
open Files
open Files.Tree (Written Kept)

namespace Init

variable (vars : Environment.Variables)

/-- The tree after commands, one after the other. -/
def runAll (tree : Tree) (inits : List Init) : Tree :=
  inits.foldl (fun tree init => (init.run vars tree).1) tree

/-- The tree after a command that makes its directory and writes nothing. -/
def outline (tree : Tree) (init : Init) : Tree :=
  (init.directory? vars).elim tree fun directory => (tree.reach directory).1

/-- The tree after commands that make their directories and write nothing. -/
def outlineAll (tree : Tree) (inits : List Init) : Tree := inits.foldl (outline vars) tree

end Init

/-- No file is loaded from the path. -/
def Lacks (tree : Tree) (path : String) : Prop := tree.has path = true → tree.find? path = none

instance (tree : Tree) (path : String) : Decidable (Lacks tree path) :=
  decidable_of_iff (tree.has path = true → (tree.find? path).isNone = true)
    (by rw [Lacks, Option.isNone_iff_eq_none])

/-! ### One command -/

/-- To write the template makes directories and puts the template under them, or nothing. -/
theorem written_putTemplate {outline tree : Tree} (h : Written (.text template) outline tree)
    (directory : String) (replace : Bool) :
    Written (.text template) (outline.reach directory).1 (putTemplate tree directory replace).1 := by
  have hreach := h.reach directory
  unfold putTemplate
  dsimp only
  split
  · next heq =>
    rw [heq] at hreach
    exact hreach
  · next heq =>
    rw [heq] at hreach
    split
    · exact hreach
    · split
      · next hwrite => exact hreach.write hwrite
      · exact hreach

/-- To write the template without replacing leaves each file as it is. -/
theorem kept_putTemplate (tree : Tree) (directory : String) :
    Kept tree (putTemplate tree directory false).1 := by
  have hreach := Kept.of_reach tree directory
  unfold putTemplate
  dsimp only
  split
  · next heq =>
    rw [heq] at hreach
    exact hreach
  · next heq =>
    rw [heq] at hreach
    split
    · exact hreach
    · next hnone =>
      split
      · next hwrite => exact hreach.trans (Kept.of_write hwrite (by simpa using hnone))
      · exact hreach

/-- Where the file is there, no directory is made and nothing is written. -/
theorem putTemplate_of_has {tree : Tree} {directory : String}
    (h : tree.has (join directory fileName) = true) :
    putTemplate tree directory false = (tree, .ok (join directory fileName)) := by
  have hparts : parts fileName = [fileName] := by decide
  have hreach : tree.reach directory = (tree, none) := Tree.reach_of_has (by decide) hparts h
  simp [putTemplate, hreach, h]

/-! ### All commands -/

section Commands

variable {vars : Environment.Variables} {tree outline : Tree}

/-- A command leaves the template where its outline has nothing, and all else as it was. -/
theorem written_run (h : Written (.text template) outline tree) (init : Init) :
    Written (.text template) (init.outline vars outline) (init.run vars tree).1 := by
  unfold Init.outline Init.run
  cases init.directory? vars with
  | none => exact h
  | some directory => exact written_putTemplate h directory _

/-- So do commands one after the other. -/
theorem written_runAll (h : Written (.text template) outline tree) (inits : List Init) :
    Written (.text template) (Init.outlineAll vars outline inits) (Init.runAll vars tree inits) := by
  induction inits generalizing tree outline with
  | nil => exact h
  | cons init inits ih => exact ih (written_run h init)

/-- A tree differs from the outline of some commands by no other file than the template. -/
theorem written_outlineAll (h : Written (.text template) outline tree) (inits : List Init) :
    Written (.text template) (Init.outlineAll vars outline inits) tree := by
  induction inits generalizing outline with
  | nil => exact h
  | cons init inits ih =>
    refine ih ?_
    unfold Init.outline
    cases init.directory? vars with
    | none => exact h
    | some directory => exact h.grow directory

/-- A command that does not replace leaves each file as it is. -/
theorem kept_run {init : Init} (h : init.replaces = false) (tree : Tree) :
    Kept tree (init.run vars tree).1 := by
  unfold Init.run
  cases init.directory? vars with
  | none => exact .refl tree
  | some directory =>
    rw [h]
    exact kept_putTemplate tree directory

/-- So do commands one after the other, none of which replaces. -/
theorem kept_runAll {inits : List Init} (h : ∀ init ∈ inits, init.replaces = false) (tree : Tree) :
    Kept tree (Init.runAll vars tree inits) := by
  induction inits generalizing tree with
  | nil => exact .refl tree
  | cons init inits ih =>
    obtain ⟨hinit, hinits⟩ := List.forall_mem_cons.mp h
    exact (kept_run hinit tree).trans (ih hinits _)

/-- Where all files are there, commands that do not replace do nothing at all. -/
theorem runAll_of_has {inits : List Init} (h : ∀ init ∈ inits, init.replaces = false)
    (hhas : ∀ init ∈ inits, ∀ directory ∈ init.directory? vars,
      tree.has (join directory fileName) = true) : Init.runAll vars tree inits = tree := by
  induction inits with
  | nil => rfl
  | cons init inits ih =>
    obtain ⟨hinit, hinits⟩ := List.forall_mem_cons.mp h
    obtain ⟨hthere, hrest⟩ := List.forall_mem_cons.mp hhas
    have hrun : (init.run vars tree).1 = tree := by
      unfold Init.run
      cases hdirectory : init.directory? vars with
      | none => rfl
      | some directory =>
        simp only [hinit, putTemplate_of_has (hthere directory hdirectory)]
    show Init.runAll vars (init.run vars tree).1 inits = tree
    rw [hrun]
    exact ih hinits hrest

/-! ### Loading -/

/-- What is loaded from a path of the tree is the template or nothing. -/
theorem exists_presentLayer {path : String} (h : Written (.text template) outline tree)
    (hlacks : Lacks outline path) :
    ∃ layer, presentLayer tree path = .ok layer ∧ IsDefault layer := by
  have hempty (hfind : tree.find? path = none) :
      ∃ layer, fileLayer tree path = .ok layer ∧ IsDefault layer :=
    ⟨.obj [], fileLayer_eq_ok_iff.mpr (.inl ⟨hfind, rfl⟩), .inl rfl⟩
  have hfull (hfind : tree.find? path = some (.text template)) :
      ∃ layer, fileLayer tree path = .ok layer ∧ IsDefault layer :=
    ⟨.obj templateMembers, fileLayer_eq_ok_iff.mpr (.inr ⟨_, _, hfind, parse?_template, rfl⟩),
      .inr rfl⟩
  unfold presentLayer
  split
  · next hhas =>
    -- A path that leads somewhere did so in the outline, or leads to a template.
    rcases h.has hhas with houtline | hread
    · cases hfind : tree.find? path with
      | none => exact hempty hfind
      | some held =>
        rcases h.find? hfind with rfl | hfound
        · exact hfull hfind
        · rw [hlacks houtline] at hfound
          cases hfound
    · exact hfull (Tree.find?_of_read hread)
  · exact ⟨.obj [], rfl, .inl rfl⟩

/-- Where only the template can be found, a load is what the environment says. -/
theorem load_of_lacks [Url.DomainNames] (h : Written (.text template) outline tree)
    (hlacks : ∀ path ∈ filePaths vars, Lacks outline path) :
    load tree vars = check [ofEnvironment vars] := by
  -- One layer after the other: each is empty or a template.
  suffices ∀ paths : List String, (∀ path ∈ paths, Lacks outline path) → ∃ files,
      List.Forall₂ (fun path layer => presentLayer tree path = .ok layer) paths files ∧
        ∀ layer ∈ files, IsDefault layer by
    obtain ⟨files, hfiles, hdefaults⟩ := this _ hlacks
    have hlayers : layers tree vars = .ok (files ++ [ofEnvironment vars]) :=
      layers_eq_ok_iff.mpr ⟨files, hfiles, rfl⟩
    rw [load_eq, hlayers]
    exact check_isDefault hdefaults _
  intro paths
  induction paths with
  | nil => exact fun _ => ⟨[], .nil, by simp⟩
  | cons path paths ih =>
    intro hlacks
    obtain ⟨hpath, hpaths⟩ := List.forall_mem_cons.mp hlacks
    obtain ⟨layer, hlayer, hdefault⟩ := exists_presentLayer h hpath
    obtain ⟨files, hfiles, hdefaults⟩ := ih hpaths
    exact ⟨layer :: files, .cons hlayer hfiles, List.forall_mem_cons.mpr ⟨hdefault, hdefaults⟩⟩

end Commands

/-- Commands that write the template leave a load as it was, be it a configuration or an error, if
no other file can be found at the paths of the two files, also when the directories of the commands
are there. And commands that do not replace files leave every file as it is; if their files are
there, they leave the tree as it is, and so each load. -/
theorem load_runAll [Url.DomainNames] (tree : Tree) (vars : Environment.Variables)
    (inits : List Init) :
    ((∀ path ∈ filePaths vars, Lacks (Init.outlineAll vars tree inits) path) →
      load (Init.runAll vars tree inits) vars = load tree vars) ∧
    ((∀ init ∈ inits, init.replaces = false) →
      (∀ path content, tree.read path = .ok content →
        (Init.runAll vars tree inits).read path = .ok content) ∧
      ((∀ init ∈ inits, ∀ directory ∈ init.directory? vars,
          tree.has (join directory fileName) = true) →
        Init.runAll vars tree inits = tree ∧
          load (Init.runAll vars tree inits) vars = load tree vars)) := by
  refine ⟨fun hlacks => ?_, fun hkeep => ⟨fun path content hread => ?_, fun hhas => ?_⟩⟩
  -- Both trees have nothing but templates beyond the outline, and so amount to the environment.
  · have hsame := Written.refl (.text template) tree
    rw [load_of_lacks (written_runAll hsame inits) hlacks,
      load_of_lacks (written_outlineAll hsame inits) hlacks]
  · exact (kept_runAll hkeep tree).read hread
  · have hrun := runAll_of_has hkeep hhas
    exact ⟨hrun, by rw [hrun]⟩

/-- Commands that replace files, where there are none, and commands that do not, where there are. -/
theorem load_runAll_replacing :
    let vars := [("XDG_CONFIG_HOME", "/"), ("LEXISCAN_REMOTE__TIMEOUT_SECS", "90")]
    let bare : Tree := ⟨.directory [("work", .directory [])], ["work"]⟩
    let replacing := [Init.project "." true, .global true]
    let file := Node.directory [("config.toml", .file (.text "version = \"2.0\"\n"))]
    let full : Tree := ⟨.directory [(".lexiscan", file), ("lexiscan", file)], []⟩
    let keeping := [Init.global false, .project "/" false]
    (∀ path ∈ filePaths vars, Lacks (Init.outlineAll vars bare replacing) path) ∧
      load bare vars = .ok { remote := { timeoutSecs := 90 } } ∧
      load (Init.runAll vars bare replacing) vars = .ok { remote := { timeoutSecs := 90 } } ∧
      (∀ init ∈ keeping, init.replaces = false) ∧
      (∀ init ∈ keeping, ∀ directory ∈ init.directory? vars,
        full.has (join directory fileName) = true) ∧
      full.read projectFile = .ok (.text "version = \"2.0\"\n") ∧
      (Init.runAll vars full keeping).read projectFile = .ok (.text "version = \"2.0\"\n") ∧
      load (Init.runAll vars full keeping) vars = load full vars := by
  intro vars bare replacing file full keeping
  have hlacks : ∀ path ∈ filePaths vars, Lacks (Init.outlineAll vars bare replacing) path := by
    decide +kernel
  have hload : load bare vars = .ok { remote := { timeoutSecs := 90 } } :=
    eq_ok_of_any (by decide +kernel)
  have hkeep : ∀ init ∈ keeping, init.replaces = false := by decide
  have hhas : ∀ init ∈ keeping, ∀ directory ∈ init.directory? vars,
      full.has (join directory fileName) = true := by
    decide +kernel
  have hread : full.read projectFile = .ok (.text "version = \"2.0\"\n") := rfl
  -- The one place has no file and is given two, the other has both and keeps them.
  have hsame := (load_runAll bare vars replacing).1 hlacks
  obtain ⟨hkept, hthere⟩ := (load_runAll full vars keeping).2 hkeep
  exact ⟨hlacks, hload, hsame.trans hload, hkeep, hhas, hread, hkept _ _ hread, (hthere hhas).2⟩

/-- Neither file is there and all is default, but to write the user's file makes a directory through
which its path leads to a file of other settings. -/
theorem load_runAll_uncovered :
    let file := Node.file (.text "version = \"2.0\"\n")
    let tree : Tree := ⟨.directory [("lexiscan", .directory [("config.toml", file)])], []⟩
    let vars := [("XDG_CONFIG_HOME", "x/..")]
    (∀ path ∈ filePaths vars, tree.has path = false) ∧ (globalDirectory? vars).isSome ∧
      load tree vars = .ok {} ∧
      load (Init.runAll vars tree [.global false]) vars = .ok { version := "2.0" } := by
  intro file tree vars
  exact ⟨by decide +kernel, by decide, eq_ok_of_any (by decide +kernel),
    eq_ok_of_any (by decide +kernel)⟩

end PolyLex.Config
