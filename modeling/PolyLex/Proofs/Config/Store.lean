import Mathlib.Data.List.Forall2
import PolyLex.Config.Store

/-!
# What a load comes to

A load makes a layer of each file, and a configuration of the layers that meets all demands. Here is
what each of these steps says if it does not fail: a file's layer is empty or a document
(`fileLayer_eq_ok_iff`), `layers` are those of the files with the environment on top
(`layers_eq_ok_iff`), and a load is `check` of them (`load_eq`).
-/

namespace PolyLex.Config

open Json (Value)
open Files

variable {tree : Tree} {vars : Environment.Variables}

/-! ### Files -/

/-- The layer of a file is what its text reads as, or empty without a file. -/
theorem fileLayer_eq_ok_iff {path : String} {layer : Value} : fileLayer tree path = .ok layer ↔
    (tree.find? path = none ∧ layer = .obj []) ∨ ∃ text members,
      tree.find? path = some (.text text) ∧ Toml.parse? text = some members ∧ layer = .obj members := by
  rw [fileLayer]
  cases tree.find? path with
  | none => simp [eq_comm]
  | some content =>
    cases content with
    -- What is no text cannot be read.
    | binary bytes => simp
    | text text =>
      simp only [reduceCtorEq, false_and, Option.some.injEq, Content.text.injEq, false_or]
      cases hparse : Toml.parse? text with
      | none =>
        simp only [reduceCtorEq, false_iff]
        rintro ⟨_, _, rfl, h, -⟩
        simp [hparse] at h
      | some members =>
        rw [Except.ok.injEq]
        constructor
        · rintro rfl
          exact ⟨text, members, rfl, hparse, rfl⟩
        · rintro ⟨_, _, rfl, h, rfl⟩
          rw [hparse] at h
          cases h
          rfl

/-- The paths of the files that are loaded, the lowest first. -/
def filePaths (vars : Environment.Variables) : List String :=
  (globalFile? vars).toList ++ [projectFile]

/-- The layers of a load, the lowest first: the user's file, the project's, the environment. -/
def layers (tree : Tree) (vars : Environment.Variables) : Except ConfigProblem (List Value) := do
  let files ← (filePaths vars).mapM (presentLayer tree)
  return files ++ [ofEnvironment vars]

/-- A list is gone through without an error just if each item is. -/
theorem mapM_eq_ok_iff {α β ε : Type} {f : α → Except ε β} {items : List α} {out : List β} :
    items.mapM f = .ok out ↔ List.Forall₂ (fun a b => f a = .ok b) items out := by
  induction items generalizing out with
  | nil => cases out <;> simp [pure, Except.pure]
  | cons a items ih =>
    rw [List.mapM_cons]
    cases ha : f a with
    | error e => simp [List.forall₂_cons_left_iff, ha, bind, Except.bind]
    | ok b =>
      simp only [List.forall₂_cons_left_iff, ha, Except.ok.injEq, ← ih]
      cases items.mapM f with
      | error e => simp [bind, Except.bind]
      | ok bs => simp [bind, Except.bind, pure, Except.pure, eq_comm]

/-- There are layers just if each file has one. -/
theorem layers_eq_ok_iff {ls : List Value} : layers tree vars = .ok ls ↔
    ∃ files, List.Forall₂ (fun path layer => presentLayer tree path = .ok layer) (filePaths vars) files ∧
      ls = files ++ [ofEnvironment vars] := by
  simp only [← mapM_eq_ok_iff]
  rw [layers]
  cases (filePaths vars).mapM (presentLayer tree) with
  | error problem => simp [bind, Except.bind]
  | ok files => simp [bind, Except.bind, pure, Except.pure, eq_comm]

/-! ### Configurations -/

/-- A configuration that is computed to be the one expected. -/
theorem eq_ok_of_any {x : Except Error Config} {c : Config}
    (h : x.toOption.any (· == c) = true) : x = .ok c := by
  cases x with
  | error e => cases h
  | ok d => rw [eq_of_beq h]

variable [Url.DomainNames]

/-- Layers are accepted just if they amount to a configuration that meets all demands. -/
theorem check_eq_ok_iff {ls : List Value} {c : Config} :
    check ls = .ok c ↔ ofLayers? ls = some c ∧ c.validate = .ok () := by
  rw [check]
  cases ofLayers? ls with
  | none => simp
  | some d =>
    rw [Option.some.injEq]
    constructor
    · intro h
      cases hvalid : d.validate with
      | error e => simp [hvalid, Except.map] at h
      | ok u =>
        obtain rfl : d = c := by simpa [hvalid, Except.map] using h
        exact ⟨rfl, hvalid⟩
    · rintro ⟨rfl, hvalid⟩
      simp [hvalid, Except.map]

/-- A load is the check of its layers. -/
theorem load_eq (tree : Tree) (vars : Environment.Variables) :
    load tree vars = ((layers tree vars).mapError Error.config).bind check := by
  rw [load, loadWithProject, layers, filePaths]
  cases ((globalFile? vars).toList ++ [projectFile]).mapM (presentLayer tree) <;> rfl

/-- A load succeeds just if there are layers and they are accepted. -/
theorem load_eq_ok_iff {c : Config} :
    load tree vars = .ok c ↔ ∃ ls, layers tree vars = .ok ls ∧ check ls = .ok c := by
  rw [load_eq]
  cases layers tree vars <;> simp [Except.mapError, Except.bind]

/-- A file is loaded just if it has a layer and that is accepted. -/
theorem loadFile_eq_ok_iff {path : String} {c : Config} :
    loadFile tree path = .ok c ↔ ∃ layer, fileLayer tree path = .ok layer ∧ check [layer] = .ok c := by
  rw [loadFile]
  cases fileLayer tree path with
  | error problem => simp [Except.mapError, bind, Except.bind]
  | ok layer => simp [Except.mapError, bind, Except.bind]

end PolyLex.Config
