import HiveSdk.Interaction.World

/-!
# Invariants of programs

An invariant relates the local state of a program to the state of its world. Whether a program preserves it is read off the parts of the program, and programs that preserve it can be run one after another, in any order and any number of times.
-/

namespace Interaction

variable {E : Type} {R : E → Type} {S σ α β : Type} {W : World E R σ} {I : S → σ → Prop}

namespace Proc

/-- Where the invariant holds at the start, every call may be made and the invariant holds at the end. -/
def Preserves (W : World E R σ) (I : S → σ → Prop) (m : Proc E R S α) : Prop :=
  ∀ st s, I st s → wp W m (fun _ st' t => I st' t) st s

namespace Preserves

variable {m m' : Proc E R S α} {f : α → Proc E R S β} {st : S} {s : σ}

theorem pure (a : α) : Preserves W I (Pure.pure a : Proc E R S α) := fun _ _ h => h

theorem bind (hm : Preserves W I m) (hf : ∀ a, Preserves W I (f a)) : Preserves W I (m >>= f) :=
  fun st s h => wp_bind_of (hm st s h) fun a st' t ht => hf a st' t ht

theorem map (g : α → β) (hm : Preserves W I m) : Preserves W I (g <$> m) :=
  fun st s h => (wp_map m g _).2 (hm st s h)

theorem ite {c : Prop} [Decidable c] (h : c → Preserves W I m) (h' : ¬c → Preserves W I m') :
    Preserves W I (if c then m else m') := by
  by_cases hc : c
  · rw [if_pos hc]
    exact h hc
  · rw [if_neg hc]
    exact h' hc

theorem get : Preserves W I (MonadState.get : Proc E R S S) := fun _ _ h => h

theorem modify {g : S → S} (hg : ∀ st s, I st s → I (g st) s) :
    Preserves W I (modify g : Proc E R S PUnit) := hg

theorem call {e : E} (he : ∀ st s, I st s → W.pre s e ∧ ∀ r t, W.step s e r t → I st t) :
    Preserves W I (Interaction.call e : Proc E R S (R e)) :=
  fun st s h => (wp_call e _).2 (he st s h)

end Preserves

end Proc

end Interaction
