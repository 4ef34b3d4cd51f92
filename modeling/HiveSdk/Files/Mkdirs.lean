import HiveSdk.Files.Tree
import HiveSdk.Model.Connect

/-!
# Making directories

`mkdirs` cuts its path at one slash after the other and makes what is missing. In a file system without links, which nobody else works on, a path is the names on it, from the root or from the working directory.
-/

namespace HiveSdk

open Interaction

/-- A tree of files, and the directory in which relative paths start. -/
structure WorkingTree where
  tree : FileTree Bytes
  cwd : List Bytes
  cwd_directory : tree.kind cwd = some .directory

namespace WorkingTree

def locate (s : WorkingTree) (path : Bytes) : List Bytes :=
  (if path.head? = some slash then [] else s.cwd) ++ segments path

def IsDirectory (s : WorkingTree) (path : Bytes) : Prop := s.tree.kind (s.locate path) = some .directory

/-- A directory can be made where there is nothing, in a directory. Anything may keep it from being made, but the answer that something is there means what it says. -/
def Step (s : WorkingTree) : (e : Event) → e.Answer → WorkingTree → Prop
  | .stat path, info, t => t = s ∧ match s.tree.kind (s.locate path) with
      | none => ∃ e, info = .error e
      | some kind => ∃ size, info = .ok ⟨kind = .directory, size⟩
  | .mkdir path, made, t => match made with
      | .ok () => t.cwd = s.cwd ∧ ∃ loc name hparent, s.locate path = loc ++ [name]
          ∧ s.tree.kind (loc ++ [name]) = none ∧ t.tree = s.tree.mkdir loc name hparent
      | .error e => t = s ∧ (e = Errno.EEXIST → s.tree.kind (s.locate path) ≠ none)
  | _, _, t => t = s

def world : World Event Event.Answer WorkingTree where
  pre _ _ := True
  step := Step

/-- The path itself, and what there is before one of its slashes. -/
def OnTheWay (path q : Bytes) : Prop := q = path ∨ q ++ [slash] <+: path

variable {σ : Type} {p : Process σ} {s t : WorkingTree} {path q : Bytes}

theorem locate_of_cwd (h : t.cwd = s.cwd) : t.locate path = s.locate path := by
  rw [locate, locate, h]

/-- On the way to a directory there are directories. -/
theorem isDirectory_onTheWay (h : s.IsDirectory path) (hq : OnTheWay path q) : s.IsDirectory q := by
  obtain rfl | ⟨rest, rfl⟩ := hq
  · exact h
  rw [List.append_assoc, List.singleton_append] at h
  cases q with
  | nil =>
      have hcwd : s.locate [] = s.cwd := List.append_nil _
      rw [IsDirectory, hcwd]
      exact s.cwd_directory
  | cons c q =>
      rw [IsDirectory, locate, segments_append_slash, ← List.append_assoc] at h
      exact FileTree.directory_above h

/-- What one call of `mkdir_internal` can do. -/
theorem wp_mkdirInternal_grows : Proc.wp world.responsive (mkdirInternal q) (fun rc _ t =>
    t.cwd = s.cwd ∧ s.tree.GrowsTo t.tree (· = s.locate q) ∧ (rc = 0 → t.IsDirectory q)) p s := by
  have hstat : ∃ info t, Step s (.stat q) info t := by
    cases hkind : s.tree.kind (s.locate q) with
    | none => exact ⟨.error 0, s, rfl, by rw [hkind]; exact ⟨0, rfl⟩⟩
    | some kind => exact ⟨.ok ⟨kind = .directory, 0⟩, s, rfl, by rw [hkind]; exact ⟨0, rfl⟩⟩
  have hminus : ¬ (-1 : Int) = 0 := by decide
  rw [mkdirInternal, Proc.wp_bind, Proc.wp_call]
  refine ⟨⟨trivial, hstat⟩, fun info t hinfo => ?_⟩
  obtain ⟨rfl, hinfo⟩ := hinfo
  cases hkind : t.tree.kind (t.locate q) with
  | none =>
      rw [hkind] at hinfo
      obtain ⟨e, rfl⟩ := hinfo
      have hrefused : ∃ made u, Step t (.mkdir q) made u := ⟨.error 0, t, rfl, fun h => absurd h (by decide)⟩
      dsimp only
      rw [Proc.wp_bind, wp_setErrno, Proc.wp_bind, Proc.wp_call]
      refine ⟨⟨trivial, hrefused⟩, fun made u hmade => ?_⟩
      cases made with
      | ok _ =>
          obtain ⟨hcwd, loc, name, hparent, hloc, habsent, htree⟩ := hmade
          have hgrows := FileTree.GrowsTo.mkdir hparent habsent
          refine ⟨hcwd, ?_, fun _ => ?_⟩
          · rw [htree, hloc]
            exact hgrows
          · rw [IsDirectory, locate_of_cwd hcwd, hloc, htree]
            exact FileTree.mkdir_self hparent
      | error e =>
          obtain ⟨rfl, hexist⟩ := hmade
          have hother : ¬ e = Errno.EEXIST := fun h => hexist h hkind
          dsimp only
          rw [Proc.wp_bind, wp_setErrno, if_neg hother]
          exact ⟨rfl, .refl _, fun h => absurd h hminus⟩
  | some kind =>
      rw [hkind] at hinfo
      obtain ⟨size, rfl⟩ := hinfo
      dsimp only
      by_cases hdir : kind = .directory
      · rw [if_pos (decide_eq_true hdir)]
        exact ⟨rfl, .refl _, fun _ => by rw [IsDirectory, hkind, hdir]⟩
      · rw [if_neg (by rw [decide_eq_true_iff]; exact hdir)]
        exact ⟨rfl, .refl _, fun h => absurd h hminus⟩

/-- What the calls for several places on the way to `path` do together. -/
structure Grown (s t : WorkingTree) (path : Bytes) : Prop where
  cwd : t.cwd = s.cwd
  grows : s.tree.GrowsTo t.tree fun loc => ∃ q, OnTheWay path q ∧ s.locate q = loc

theorem Grown.refl (s : WorkingTree) (path : Bytes) : Grown s s path := ⟨rfl, .refl _⟩

/-- The grown tree grows further. -/
theorem Grown.step {u : WorkingTree} (h : Grown s t path) (hq : OnTheWay path q) (hcwd : u.cwd = t.cwd)
    (hgrows : t.tree.GrowsTo u.tree (· = t.locate q)) : Grown s u path where
  cwd := hcwd.trans h.cwd
  grows := by
    apply h.grows.trans
    apply hgrows.mono
    rintro loc rfl
    exact ⟨q, hq, (locate_of_cwd h.cwd).symm⟩

/-- The loop stays on the way. -/
theorem wp_mkdirsLoop_grows {front rest : Bytes} {component : Bool} (hpath : front ++ rest <+: path)
    (h : Grown s t path) :
    Proc.wp world.responsive (mkdirsLoop front component rest) (fun _ _ u => Grown s u path) p t := by
  induction rest generalizing front component p t with
  | nil => exact h
  | cons c rest ih =>
      have hnext : (front ++ [c]) ++ rest <+: path := by rwa [List.append_assoc, List.singleton_append]
      rw [mkdirsLoop]
      by_cases hslash : c = slash
      · rw [if_pos hslash]
        cases component with
        | false =>
            rw [if_neg Bool.false_ne_true]
            exact ih hnext h
        | true =>
            have hcut : OnTheWay path front := .inr ((List.prefix_append _ rest).trans (hslash ▸ hnext))
            rw [if_pos rfl, Proc.wp_bind]
            refine Proc.wp_mono (fun rc p' u hmade => ?_) wp_mkdirInternal_grows
            have hgrown := h.step hcut hmade.1 hmade.2.1
            by_cases hrc : rc = 0
            · rw [if_neg (not_not.2 hrc)]
              exact ih hnext hgrown
            · rw [if_pos hrc]
              exact hgrown
      · rw [if_neg hslash]
        exact ih hnext h

theorem wp_mkdirs_grows : Proc.wp world.responsive (mkdirs path) (fun rc _ t =>
    Grown s t path ∧ (rc = 0 → t.IsDirectory path)) p s := by
  rw [mkdirs, Proc.wp_bind]
  refine Proc.wp_mono (fun rc p' t hgrown => ?_) (wp_mkdirsLoop_grows (List.take_prefix _ path) (.refl s path))
  by_cases hrc : rc = 0
  · rw [if_neg (not_not.2 hrc)]
    refine Proc.wp_mono (fun rc p' u hmade => ?_) wp_mkdirInternal_grows
    exact ⟨hgrown.step (.inl rfl) hmade.1 hmade.2.1, hmade.2.2⟩
  · rw [if_pos hrc]
    exact ⟨hgrown, fun h => absurd h hrc⟩

/-! ### The second time -/

private theorem wp_mkdirInternal_again (h : s.IsDirectory q) :
    Proc.wp world (mkdirInternal q) (fun rc _ t => rc = 0 ∧ t = s) p s := by
  rw [mkdirInternal, Proc.wp_bind, Proc.wp_call]
  refine ⟨trivial, fun info t hinfo => ?_⟩
  obtain ⟨rfl, hinfo⟩ := hinfo
  rw [h] at hinfo
  obtain ⟨size, rfl⟩ := hinfo
  exact ⟨rfl, rfl⟩

private theorem wp_mkdirsLoop_again {front rest : Bytes} {component : Bool} (hpath : front ++ rest <+: path)
    (h : s.IsDirectory path) :
    Proc.wp world (mkdirsLoop front component rest) (fun rc _ t => rc = 0 ∧ t = s) p s := by
  induction rest generalizing front component p with
  | nil => exact ⟨rfl, rfl⟩
  | cons c rest ih =>
      have hnext : (front ++ [c]) ++ rest <+: path := by rwa [List.append_assoc, List.singleton_append]
      rw [mkdirsLoop]
      by_cases hslash : c = slash
      · rw [if_pos hslash]
        cases component with
        | false =>
            rw [if_neg Bool.false_ne_true]
            exact ih hnext
        | true =>
            have hcut : OnTheWay path front := .inr ((List.prefix_append _ rest).trans (hslash ▸ hnext))
            rw [if_pos rfl, Proc.wp_bind]
            refine Proc.wp_mono (fun rc p' t hmade => ?_) (wp_mkdirInternal_again (isDirectory_onTheWay h hcut))
            obtain ⟨rfl, rfl⟩ := hmade
            rw [if_neg (not_not.2 rfl)]
            exact ih hnext
      · rw [if_neg hslash]
        exact ih hnext

/-- Where the path is a directory, nothing is left to do. -/
theorem wp_mkdirs_again (h : s.IsDirectory path) :
    Proc.wp world (mkdirs path) (fun rc _ t => rc = 0 ∧ t = s) p s := by
  rw [mkdirs, Proc.wp_bind]
  refine Proc.wp_mono (fun rc p' t hmade => ?_) (wp_mkdirsLoop_again (List.take_prefix _ path) h)
  obtain ⟨rfl, rfl⟩ := hmade
  rw [if_neg (not_not.2 rfl)]
  exact wp_mkdirInternal_again h

end WorkingTree

/-- Every call of `mkdirs` is answered, and it returns. Then what was there is as it was, and what is new is a directory on the way to the path. If it returns zero, there are directories all the way, and the next call returns zero and changes nothing. -/
theorem mkdirs_makes_ancestors {σ : Type} (path : Bytes) (p : Process σ) (s : WorkingTree) :
    (∀ tr e k t, Steps (mkdirs path p) tr (.ask e k) → WorkingTree.world.Accepts s tr t →
        ∃ r u, WorkingTree.world.step t e r u)
      ∧ (∃ tr rc p' t, Run (mkdirs path p) tr (rc, p') ∧ WorkingTree.world.Accepts s tr t)
      ∧ ∀ tr rc p' t, Run (mkdirs path p) tr (rc, p') → WorkingTree.world.Accepts s tr t →
        (s.tree.GrowsTo t.tree fun loc => ∃ q, WorkingTree.OnTheWay path q ∧ s.locate q = loc)
          ∧ (rc = 0 → ∀ q, WorkingTree.OnTheWay path q → t.IsDirectory q)
          ∧ (rc = 0 → ∀ (q : Process σ) tr' rc' q' u, Run (mkdirs path q) tr' (rc', q') →
              WorkingTree.world.Accepts t tr' u → rc' = 0 ∧ u = t) := by
  have hspec : Proc.wp WorkingTree.world.responsive (mkdirs path) (fun rc _ t =>
      WorkingTree.Grown s t path ∧ (rc = 0 → t.IsDirectory path)) p s := WorkingTree.wp_mkdirs_grows
  refine ⟨fun tr e k t hsteps haccepts => ?_, ?_, fun tr rc p' t hrun haccepts => ?_⟩
  · exact (Prog.wp_steps hspec hsteps (World.accepts_responsive_iff.2 haccepts)).2
  · obtain ⟨tr, x, t, hrun, haccepts, -⟩ := Prog.exists_run_of_wp hspec
    exact ⟨tr, x.1, x.2, t, hrun, haccepts⟩
  · obtain ⟨hgrown, hdirectory⟩ := Prog.wp_run hspec hrun (World.accepts_responsive_iff.2 haccepts)
    refine ⟨hgrown.grows, fun hrc q hq => WorkingTree.isDirectory_onTheWay (hdirectory hrc) hq, ?_⟩
    intro hrc q tr' rc' q' u hrun' haccepts'
    have hagain := Prog.wp_run (WorkingTree.wp_mkdirs_again (hdirectory hrc)) hrun' haccepts'
    exact hagain

end HiveSdk
