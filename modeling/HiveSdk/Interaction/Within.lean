import HiveSdk.Interaction.Observe
import HiveSdk.Interaction.Preserves

/-!
# Programs that keep to some calls

Whether a program keeps to the calls of a set does not depend on its results, so it is read off the parts of the program one by one. The rules are those of the constructs that programs are written with.
-/

namespace Interaction

variable {E : Type} {R : E → Type} {S α β : Type} {φ : E → Prop}

/-- A weakest precondition behind a guard that asks nothing of the results says something about each call of each run. -/
theorem Prog.wp_guard_iff (p : Prog E R α) :
    p.wp (World.guard φ) (fun _ _ => True) () ↔ ∀ tr e k, Steps p tr (.ask e k) → φ e := by
  constructor
  · intro h tr e k hsteps
    exact Prog.wp_steps h hsteps (World.guard_accepts φ tr)
  · intro h
    induction p with
    | ret a => trivial
    | ask e k ih =>
        refine ⟨h [] e k (.refl _), fun r _ _ => ih r fun tr e' k' hsteps => ?_⟩
        exact h (⟨e, r⟩ :: tr) e' k' (.ask e k r hsteps)

namespace Proc

/-- Every call of every run of `m` is one of `φ`, in whatever state it starts. -/
def Within (φ : E → Prop) (m : Proc E R S α) : Prop :=
  ∀ st, wp (World.guard φ) m (fun _ _ _ => True) st ()

theorem within_iff {m : Proc E R S α} :
    Within φ m ↔ ∀ st tr e k, Steps (m st) tr (.ask e k) → φ e :=
  forall_congr' fun st => Prog.wp_guard_iff (m st)

/-- Keeping to a set is an invariant that says nothing about the states. -/
theorem within_iff_preserves {m : Proc E R S α} :
    Within φ m ↔ Preserves (World.guard φ) (fun _ _ => True) m := by
  constructor
  · intro h st s _
    exact h st
  · intro h st
    exact h st () trivial

namespace Within

variable {m m' : Proc E R S α} {f : α → Proc E R S β}

theorem wp {st : S} {Q : α → S → Unit → Prop} (h : Within φ m) (hQ : ∀ a st', Q a st' ()) :
    Proc.wp (World.guard φ) m Q st () :=
  wp_mono (fun a st' _ _ => hQ a st') (h _)

theorem pure (a : α) : Within φ (Pure.pure a : Proc E R S α) := fun _ => trivial

theorem bind (hm : Within φ m) (hf : ∀ a, Within φ (f a)) : Within φ (m >>= f) :=
  fun _ => (wp_bind m f _).2 (hm.wp fun a => hf a)

theorem ite {c : Prop} [Decidable c] (h : c → Within φ m) (h' : ¬c → Within φ m') :
    Within φ (if c then m else m') := by
  by_cases hc : c
  · rw [if_pos hc]
    exact h hc
  · rw [if_neg hc]
    exact h' hc

theorem call {e : E} (he : φ e) : Within φ (Interaction.call e : Proc E R S (R e)) :=
  fun _ => (wp_guard_call e _).2 ⟨he, fun _ => trivial⟩

theorem preserves (h : Within φ m) : Preserves (World.guard φ) (fun _ _ => True) m :=
  within_iff_preserves.1 h

theorem get : Within φ (MonadState.get : Proc E R S S) := fun _ => trivial

theorem modify (g : S → S) : Within φ (modify g : Proc E R S PUnit) := fun _ => trivial

end Within

end Proc

end Interaction
