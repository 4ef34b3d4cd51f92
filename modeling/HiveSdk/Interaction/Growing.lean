import HiveSdk.Interaction.Observe
import Mathlib.Order.Monotone.Defs

/-!
# Worlds that only grow

Where the states of a world only go up in some order, a statement that is monotone in the state stays true once it has become true. What several programs have found out, one after another, is then all true of one state: the last.
-/

namespace Interaction

variable {E : Type} {R : E → Type} {S σ τ α ι : Type} [Preorder σ] [Preorder τ] {W : World E R σ}

/-- No answer leads down. -/
def World.Grows (W : World E R σ) : Prop := ∀ s e r t, W.step s e r t → s ≤ t

theorem World.Accepts.le {s t : σ} {tr : List (Entry E R)} (h : W.Accepts s tr t) (hgrows : W.Grows) :
    s ≤ t := by
  induction h with
  | nil s => exact le_refl s
  | cons hstep _ ih => exact (hgrows _ _ _ _ hstep).trans ih

theorem World.Grows.prod {V : World E R τ} (hW : W.Grows) (hV : V.Grows) : (W.prod V).Grows :=
  fun s e r t hstep => ⟨hW s.1 e r t.1 hstep.1, hV s.2 e r t.2 hstep.2⟩

/-- Whatever a program comes to, the world is then no lower than it was. -/
theorem Prog.wp_grown {p : Prog E R α} {Q : α → σ → Prop} {s : σ} (hgrows : W.Grows) (h : p.wp W Q s) :
    p.wp W (fun a t => Q a t ∧ s ≤ t) s := by
  induction p generalizing s with
  | ret a => exact ⟨h, le_refl s⟩
  | ask e k ih =>
      refine ⟨h.1, fun r t hstep => ?_⟩
      have hle := hgrows s e r t hstep
      exact wp_mono (fun a u hu => ⟨hu.1, hle.trans hu.2⟩) (ih r (h.2 r t hstep))

namespace Proc

theorem wp_grown {m : Proc E R S α} {Q : α → S → σ → Prop} {st : S} {s : σ} (hgrows : W.Grows)
    (h : wp W m Q st s) : wp W m (fun a st' t => Q a st' t ∧ s ≤ t) st s :=
  Prog.wp_grown hgrows h

/-- One program for each member of a list, with all the results. -/
def collect (f : ι → Proc E R S α) : List ι → Proc E R S (List α)
  | [] => return []
  | i :: is => do
      let a ← f i
      let as ← collect f is
      return a :: as

/-- What each program is sure to say truly of the world as it leaves it, all of them say truly of the world in the end. -/
theorem wp_collect {f : ι → Proc E R S α} {T : ι → α → σ → Prop} {is : List ι} (hgrows : W.Grows)
    (hmono : ∀ i a, Monotone (T i a)) (h : ∀ i ∈ is, ∀ st s, wp W (f i) (fun a _ t => T i a t) st s)
    (st : S) (s : σ) :
    wp W (collect f is) (fun as _ t => List.Forall₂ (fun i a => T i a t) is as) st s := by
  induction is generalizing st s with
  | nil => exact .nil
  | cons i is ih =>
      rw [collect]
      apply wp_bind_of (h i List.mem_cons_self st s)
      intro a st₁ t ha
      have hrest := ih (fun j hj => h j (List.mem_cons_of_mem i hj)) st₁ t
      apply wp_bind_of (wp_grown hgrows hrest)
      rintro as st₂ u ⟨has, hle⟩
      exact .cons (hmono i a hle ha) has

end Proc

end Interaction
