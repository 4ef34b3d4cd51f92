import HiveSdk.Interaction.Prog

/-!
# Components

Some of the calls of a program go to a component that is a part of the system too and has a state of its own. With the component attached these calls are no longer seen from the outside. A run with the component is a run of the program in which the component has given the answers to its calls.
-/

namespace Interaction

variable {E : Type} {R : E → Type} {H α β : Type}

/-- The answers of a component to the calls it knows, and its next state. -/
abbrev Component (E : Type) (R : E → Type) (H : Type) := (e : E) → H → Option (R e × H)

/-- The program together with the component. -/
def Prog.attach (c : Component E R H) : Prog E R α → H → Prog E R (α × H)
  | .ret a, s => .ret (a, s)
  | .ask e k, s =>
      match c e s with
      | some (r, s') => (k r).attach c s'
      | none => .ask e fun r => (k r).attach c s

/-- In the trace the component gives the answers to the calls it knows; `seen` is what is left without them. -/
inductive Follows (c : Component E R H) : H → List (Entry E R) → List (Entry E R) → H → Prop
  | nil (s : H) : Follows c s [] [] s
  | own {e : E} {r : R e} {s s' s'' : H} {tr seen : List (Entry E R)} (h : c e s = some (r, s'))
      (hrest : Follows c s' tr seen s'') : Follows c s (⟨e, r⟩ :: tr) seen s''
  | other {e : E} (r : R e) {s s'' : H} {tr seen : List (Entry E R)} (h : c e s = none)
      (hrest : Follows c s tr seen s'') : Follows c s (⟨e, r⟩ :: tr) (⟨e, r⟩ :: seen) s''

section
variable {c : Component E R H} {s s' s'' : H} {tr tr' seen seen' : List (Entry E R)}

theorem Follows.append (h : Follows c s tr seen s') (h' : Follows c s' tr' seen' s'') :
    Follows c s (tr ++ tr') (seen ++ seen') s'' := by
  induction h with
  | nil s => exact h'
  | own hown _ ih => exact .own hown (ih h')
  | other r hother _ ih => exact .other r hother (ih h')

/-- A run with the component comes from a run of the program. -/
theorem Prog.run_of_attach {p : Prog E R α} {a : α} (h : Run (p.attach c s) seen (a, s')) :
    ∃ tr, Run p tr a ∧ Follows c s tr seen s' := by
  induction p generalizing s seen with
  | ret b =>
      rw [Prog.attach, run_ret_iff] at h
      obtain ⟨rfl, hresult⟩ := h
      obtain ⟨rfl, rfl⟩ := Prod.mk.inj hresult
      exact ⟨[], .refl _, .nil s'⟩
  | ask e k ih =>
      rw [Prog.attach] at h
      split at h
      · rename_i r next hown
        obtain ⟨tr, hrun, hfollows⟩ := ih r h
        exact ⟨⟨e, r⟩ :: tr, .ask e k r hrun, .own hown hfollows⟩
      · rename_i hother
        obtain ⟨r, rest, rfl, hrest⟩ := run_ask_iff.1 h
        obtain ⟨tr, hrun, hfollows⟩ := ih r hrest
        exact ⟨⟨e, r⟩ :: tr, .ask e k r hrun, .other r hother hfollows⟩

/-- Each answer in the trace to a call that the component knows is the one it gives in a state that it has come to. -/
theorem Follows.answer (h : Follows c s tr seen s') {e : E} {r : R e} (hmem : ⟨e, r⟩ ∈ tr) :
    ∃ tr₁ seen₁ s₁, Follows c s tr₁ seen₁ s₁ ∧ ∀ answer ∈ c e s₁, answer.1 = r := by
  induction h with
  | nil s => cases hmem
  | @own e' r' s s₁ s'' tr seen hown _ ih =>
      rcases List.mem_cons.1 hmem with heq | hmem
      · cases heq
        refine ⟨[], [], s, .nil s, fun answer hanswer => ?_⟩
        obtain rfl := Option.some.inj (hown.symm.trans hanswer)
        rfl
      · obtain ⟨tr₁, seen₁, s₂, hfollows, hanswer⟩ := ih hmem
        exact ⟨_, _, s₂, .own hown hfollows, hanswer⟩
  | @other e' r' s s'' tr seen hother _ ih =>
      rcases List.mem_cons.1 hmem with heq | hmem
      · cases heq
        exact ⟨[], [], s, .nil s, fun answer hanswer => by cases hother.symm.trans hanswer⟩
      · obtain ⟨tr₁, seen₁, s₂, hfollows, hanswer⟩ := ih hmem
        exact ⟨_, _, s₂, .other r' hother hfollows, hanswer⟩

end

end Interaction
