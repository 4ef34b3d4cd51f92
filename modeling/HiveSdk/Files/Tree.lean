import Mathlib.Data.List.Induction
import Mathlib.Logic.Function.Basic

/-!
# Trees of files

A file system without links: what there is at the end of every way from the root, where a way is a list of names. Above an entry there are directories. The one change that is considered is a new directory, and a tree grows by several of them.
-/

inductive EntryKind
  | directory | file
  deriving DecidableEq, Repr

/-- Every entry is the root or an entry of a directory. -/
structure FileTree (Name : Type) where
  kind : List Name → Option EntryKind
  kind_nil : kind [] = some .directory
  kind_parent : ∀ loc name, kind (loc ++ [name]) ≠ none → kind loc = some .directory

namespace FileTree

variable {Name : Type} {t u v : FileTree Name} {loc rest : List Name}

theorem kind_above (hne : rest ≠ []) (h : t.kind (loc ++ rest) ≠ none) : t.kind loc = some .directory := by
  induction rest using List.reverseRecOn with
  | nil => exact absurd rfl hne
  | append_singleton rest name ih =>
      rw [← List.append_assoc] at h
      have hparent := t.kind_parent _ name h
      by_cases hrest : rest = []
      · rwa [hrest, List.append_nil] at hparent
      · apply ih hrest
        rw [hparent]
        exact Option.some_ne_none _

/-- What is above a directory is a directory. -/
theorem directory_above (h : t.kind (loc ++ rest) = some .directory) : t.kind loc = some .directory := by
  by_cases hrest : rest = []
  · rwa [hrest, List.append_nil] at h
  · apply kind_above hrest
    rw [h]
    exact Option.some_ne_none _

section
variable [DecidableEq Name] {name : Name}

/-- A new directory in a directory. -/
def mkdir (t : FileTree Name) (loc : List Name) (name : Name) (hparent : t.kind loc = some .directory) :
    FileTree Name where
  kind := Function.update t.kind (loc ++ [name]) (some .directory)
  kind_nil := by
    rw [Function.update_of_ne (List.append_ne_nil_of_right_ne_nil _ (List.cons_ne_nil _ _)).symm]
    exact t.kind_nil
  kind_parent := by
    intro loc' name' h
    by_cases hnew : loc' = loc ++ [name]
    · rw [hnew, Function.update_self]
    rw [Function.update_of_ne hnew]
    by_cases hsame : loc' ++ [name'] = loc ++ [name]
    · rwa [(List.append_inj' hsame rfl).1]
    · rw [Function.update_of_ne hsame] at h
      exact t.kind_parent loc' name' h

theorem mkdir_self (hparent : t.kind loc = some .directory) :
    (t.mkdir loc name hparent).kind (loc ++ [name]) = some .directory := Function.update_self ..

theorem mkdir_of_ne (hparent : t.kind loc = some .directory) {loc' : List Name} (hne : loc' ≠ loc ++ [name]) :
    (t.mkdir loc name hparent).kind loc' = t.kind loc' := Function.update_of_ne hne ..

end

/-- What was there is as it was, and what is new is a directory at one of the places `P`. -/
structure GrowsTo (t u : FileTree Name) (P : List Name → Prop) : Prop where
  kept : ∀ loc kind, t.kind loc = some kind → u.kind loc = some kind
  new : ∀ loc, t.kind loc = none → u.kind loc ≠ none → u.kind loc = some .directory ∧ P loc

namespace GrowsTo

variable {P Q : List Name → Prop}

theorem refl (t : FileTree Name) : t.GrowsTo t P := ⟨fun _ _ h => h, fun _ hnone hsome => absurd hnone hsome⟩

theorem trans (h : t.GrowsTo u P) (h' : u.GrowsTo v P) : t.GrowsTo v P where
  kept loc kind hkind := h'.kept loc kind (h.kept loc kind hkind)
  new := by
    intro loc hnone hsome
    cases hu : u.kind loc with
    | none => exact h'.new loc hu hsome
    | some kind =>
        have hnew := h.new loc hnone (by rw [hu]; exact Option.some_ne_none _)
        exact ⟨h'.kept loc _ hnew.1, hnew.2⟩

theorem mono (h : t.GrowsTo u P) (hPQ : ∀ loc, P loc → Q loc) : t.GrowsTo u Q :=
  ⟨h.kept, fun loc hnone hsome => ⟨(h.new loc hnone hsome).1, hPQ loc (h.new loc hnone hsome).2⟩⟩

theorem mkdir [DecidableEq Name] {name : Name} (hparent : t.kind loc = some .directory)
    (habsent : t.kind (loc ++ [name]) = none) : t.GrowsTo (t.mkdir loc name hparent) (· = loc ++ [name]) where
  kept := by
    intro loc' kind hkind
    rw [mkdir_of_ne hparent, hkind]
    rintro rfl
    rw [habsent] at hkind
    cases hkind
  new := by
    intro loc' hnone hsome
    by_cases hsame : loc' = loc ++ [name]
    · exact ⟨hsame ▸ mkdir_self hparent, hsame⟩
    · rw [mkdir_of_ne hparent hsame] at hsome
      exact absurd hnone hsome

end GrowsTo

end FileTree
