import HiveSdk.Files.Local

/-!
# Destinations on a local disk

A local file system in which everything can go wrong: a file may not be opened, a write may fail or stop halfway, and an entry may not be removable. Paths are texts that designate places, and two texts may designate the same one. The world below keeps what is where, and which places have been touched, while an observer keeps what the calls have been answered. A download to a file is followed through both; in between, the backend may save a refreshed token to its keystore.
-/

namespace HiveSdk

open Interaction

/-! ### The disk -/

/-- How paths designate places, and which places an entry can be removed from: not those of directories, nor those that the permissions protect. -/
structure FileSystem (Loc : Type) where
  locate : Bytes → Loc
  removable : Loc → Bool

/-- What is where, and the places at which an entry has been created, written or removed. -/
structure Disk (Loc : Type) where
  entries : Loc → Option Bytes
  touched : List Loc

section
variable {Loc : Type} [DecidableEq Loc]

def Disk.put (s : Disk Loc) (loc : Loc) (entry : Option Bytes) : Disk Loc :=
  ⟨Function.update s.entries loc entry, loc :: s.touched⟩

namespace FileSystem

variable (fs : FileSystem Loc)

def unlinked (s : Disk Loc) (path : Bytes) : Disk Loc :=
  if (s.entries (fs.locate path)).isSome ∧ fs.removable (fs.locate path)
  then s.put (fs.locate path) none else s

/-- What a call does to the disk. -/
def Step (s : Disk Loc) : (e : Event) → e.Answer → Disk Loc → Prop
  | .openFile path .wronlyCreatExcl, opened, t =>
      (opened = .ok () → s.entries (fs.locate path) = none ∧ t = s.put (fs.locate path) (some []))
      ∧ (opened ≠ .ok () → t = s)
  | .openFile path .wronlyTruncCreat, opened, t =>
      (opened = .ok () → t = s.put (fs.locate path) (some [])) ∧ (opened ≠ .ok () → t = s)
  | .write path data, written, t =>
      (∀ n, written = .ok n → n ≤ data.length ∧
        t = s.put (fs.locate path) (some ((s.entries (fs.locate path)).getD [] ++ data.take n)))
      ∧ (∀ e, written = .error e → t = s)
  | .unlink path, _, t => t = fs.unlinked s path
  | _, _, t => t = s

def disk : World Event Event.Answer (Disk Loc) where
  pre _ _ := True
  step := fs.Step

end FileSystem

end

/-! ### What the calls have been answered -/

/-- The keystores that were opened for writing, and what became of the destination: whether it was created, and whether the write to it fell short. `storing` says that the next write goes to a keystore. -/
structure LocalCalls where
  saved : List Bytes := []
  storing : Bool := false
  created : Bool := false
  short : Bool := false
  deriving DecidableEq, Repr

def LocalCalls.observe (c : LocalCalls) (entry : Entry Event Event.Answer) : LocalCalls :=
  match entry with
  | ⟨.openFile path .wronlyTruncCreat, .ok _⟩ => { c with saved := path :: c.saved, storing := true }
  | ⟨.openFile _ .wronlyCreatExcl, .ok _⟩ => { c with created := true }
  | ⟨.write _ data, written⟩ =>
      if c.storing then { c with storing := false }
      else match written with
        | .ok n => { c with short := n ≠ data.length }
        | .error _ => { c with short := true }
  | _ => c

/-- A write that does not go to a keystore. -/
theorem LocalCalls.observe_write {c : LocalCalls} (h : c.storing = false) {path data : Bytes}
    (written : Except Errno Nat) : c.observe ⟨.write path data, written⟩ = { c with
      short := match written with
        | .ok n => decide (n ≠ data.length)
        | .error _ => true } := by
  show (if c.storing then _ else _) = _
  rw [if_neg (by simp [h])]
  rcases written with e | n
  · rfl
  · rfl

def LocalCalls.of (tr : Trace) : LocalCalls := tr.foldl LocalCalls.observe {}

/-! ### The parts of a download that stay away from the destination -/

section
variable {Loc : Type} [DecidableEq Loc] {fs : FileSystem Loc}

/-- The disk and the observer side by side. -/
def FileSystem.watched (fs : FileSystem Loc) : World Event Event.Answer (Disk Loc × LocalCalls) :=
  fs.disk.prod (World.observer LocalCalls.observe)

variable {σ : Type} {p : Process σ} {x : Disk Loc × LocalCalls}

theorem watched_elsewhere {e : Event} {r : e.Answer} {y : Disk Loc × LocalCalls}
    (he : LocalFiles.isElsewhere e) (h : fs.watched.step x e r y) : y = x := by
  obtain ⟨hdisk, hcalls⟩ := h
  have hdisk' : y.1 = x.1 := by
    cases e <;> first | exact hdisk | exact absurd he Bool.false_ne_true
  have hcalls' : y.2 = x.2 := by
    cases e <;> first | exact hcalls | exact absurd he Bool.false_ne_true
  exact Prod.ext hdisk' hcalls'

theorem watched_call_elsewhere {e : Event} (he : LocalFiles.isElsewhere e)
    {Q : e.Answer → Process σ → Disk Loc × LocalCalls → Prop} (h : ∀ r, Q r p x) :
    Proc.wp fs.watched (call e) Q p x := by
  rw [Proc.wp_call]
  refine ⟨⟨trivial, trivial⟩, fun r y hstep => ?_⟩
  rw [watched_elsewhere he hstep]
  exact h r

/-- A program that makes no call to a local file leaves everything as it is. -/
theorem watched_of_guard {α : Type} {m : Hive σ α} {φ : Event → Prop} {P : α → Process σ → Prop}
    {Q : α → Process σ → Disk Loc × LocalCalls → Prop}
    (h : Proc.wp (World.guard φ) m (fun a p' _ => P a p') p ())
    (hφ : ∀ e, φ e → LocalFiles.isElsewhere e) (hQ : ∀ a p', P a p' → Q a p' x) :
    Proc.wp fs.watched m Q p x := by
  have hstep : ∀ y e r z, y = x → φ e → fs.watched.step y e r z → z = x := by
    intro y e r z hy he hstep
    rw [watched_elsewhere (hφ e he) hstep, hy]
  refine Proc.wp_frame h (fun _ _ _ _ => ⟨trivial, trivial⟩) hstep rfl fun a p' y hP hy => ?_
  rw [hy]
  exact hQ a p' hP

end

end HiveSdk
