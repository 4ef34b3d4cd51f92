import HiveSdk.Interaction.Observe

/-!
# Parties that share a world

Several programs run at the same time, each step of one of them in a state that all of them share. A run of the whole is a trace in which every call says whose it is, and the parties take turns in any way. A party takes part in such a run as it would alone, as long as what the others do leaves a relation between its own world and the shared state intact. Where all changes come from single steps, the state at the end is reached by these steps one after another.
-/

namespace Interaction

variable {ι E : Type} {R : E → Type} {S T C α σ : Type}

/-- A call of one of the parties, with its answer. -/
abbrev JointEntry (ι E : Type) (R : E → Type) := Entry (ι × E) fun x => R x.2

/-- The world of all parties. Each of them has its own view of the shared state. -/
def World.joint (W : ι → World E R S) : World (ι × E) (fun x => R x.2) S where
  pre s x := (W x.1).pre s x.2
  step s x r t := (W x.1).step s x.2 r t

/-! ### What one party does -/

section
variable [DecidableEq ι]

/-- The calls of one party. -/
def ofParty (i : ι) (tr : List (JointEntry ι E R)) : List (Entry E R) :=
  tr.filterMap fun entry => if entry.1.1 = i then some ⟨entry.1.2, entry.2⟩ else none

variable {i j : ι} {e : E} {r : R e} {tr tr' : List (JointEntry ι E R)}

@[simp] theorem ofParty_nil : ofParty i ([] : List (JointEntry ι E R)) = [] := rfl

@[simp] theorem ofParty_append : ofParty i (tr ++ tr') = ofParty i tr ++ ofParty i tr' :=
  List.filterMap_append ..

@[simp] theorem ofParty_cons_self : ofParty i (⟨(i, e), r⟩ :: tr) = ⟨e, r⟩ :: ofParty i tr := by
  simp [ofParty]

theorem ofParty_cons_of_ne (h : j ≠ i) : ofParty i (⟨(j, e), r⟩ :: tr) = ofParty i tr := by
  simp [ofParty, h]

theorem ofParty_sublist (i : ι) (h : tr.Sublist tr') : (ofParty i tr).Sublist (ofParty i tr') :=
  h.filterMap _

theorem mem_ofParty_iff : ⟨e, r⟩ ∈ ofParty i tr ↔ ⟨(i, e), r⟩ ∈ tr := by
  rw [ofParty, List.mem_filterMap]
  constructor
  · rintro ⟨⟨⟨j, e'⟩, r'⟩, hmem, hsome⟩
    by_cases hj : j = i
    · subst hj
      rw [if_pos rfl] at hsome
      cases hsome
      exact hmem
    · rw [if_neg hj] at hsome
      cases hsome
  · intro hmem
    exact ⟨_, hmem, if_pos rfl⟩

/-- The calls of a party that is not interrupted. -/
def asParty (i : ι) (tr : List (Entry E R)) : List (JointEntry ι E R) := tr.map fun entry => ⟨(i, entry.1), entry.2⟩

@[simp] theorem ofParty_asParty_self (tr : List (Entry E R)) : ofParty i (asParty i tr) = tr := by
  simp [ofParty, asParty]

theorem ofParty_asParty_of_ne (h : j ≠ i) (tr : List (Entry E R)) : ofParty i (asParty j tr) = [] := by
  simp [ofParty, asParty, h]

/-- A party's part of a run is a run in a world of its own, when its steps can be taken there and the steps of the others do not matter. -/
theorem World.joint_simulates {W : ι → World E R S} {V : World E R T} {I : T → S → Prop} {s s' : S} {t : T}
    (h : (World.joint W).Accepts s tr s') (hrel : I t s)
    (hown : ∀ e r, ⟨(i, e), r⟩ ∈ tr → ∀ t s s', I t s → (W i).step s e r s' →
      ∃ t', V.step t e r t' ∧ I t' s')
    (hothers : ∀ j e r, ⟨(j, e), r⟩ ∈ tr → j ≠ i → ∀ t s s', I t s → (W j).step s e r s' → I t s') :
    ∃ t', V.Accepts t (ofParty i tr) t' ∧ I t' s' := by
  induction h generalizing t with
  | nil s => exact ⟨t, .nil t, hrel⟩
  | @cons s u s' x r tr hstep hrest ih =>
      obtain ⟨j, e⟩ := x
      have hown' : ∀ e' r', ⟨(i, e'), r'⟩ ∈ tr → ∀ t s s', I t s → (W i).step s e' r' s' →
          ∃ t', V.step t e' r' t' ∧ I t' s' := fun e' r' hmem => hown e' r' (List.mem_cons_of_mem _ hmem)
      have hothers' : ∀ j' e' r', ⟨(j', e'), r'⟩ ∈ tr → j' ≠ i → ∀ t s s', I t s →
          (W j').step s e' r' s' → I t s' :=
        fun j' e' r' hmem => hothers j' e' r' (List.mem_cons_of_mem _ hmem)
      by_cases hj : j = i
      · subst hj
        obtain ⟨t₁, hstep₁, hrel₁⟩ := hown e r List.mem_cons_self t s u hrel hstep
        obtain ⟨t', hacc, hrel'⟩ := ih hrel₁ hown' hothers'
        rw [ofParty_cons_self]
        exact ⟨t', .cons hstep₁ hacc, hrel'⟩
      · rw [ofParty_cons_of_ne hj]
        exact ih (hothers j e r List.mem_cons_self hj t s u hrel hstep) hown' hothers'

end

/-! ### The steps that change something -/

/-- What is said of the state changes in the steps of `writer` only, so in the end it is what these steps make of it in their order. -/
theorem World.Accepts.follows {W : World E R S} {I : S → C → Prop} {writer : Entry E R → Option ι}
    {effect : C → ι → C} {s s' : S} {c : C} {tr : List (Entry E R)} (h : W.Accepts s tr s') (hrel : I s c)
    (hkeep : ∀ entry, writer entry = none → ∀ s s' c, W.step s entry.1 entry.2 s' → I s c → I s' c)
    (hwrite : ∀ a entry b i s₁ s₂ c, tr = a ++ entry :: b → writer entry = some i → W.Accepts s a s₁ →
      W.step s₁ entry.1 entry.2 s₂ → W.Accepts s₂ b s' → I s₁ c → I s₂ (effect c i)) :
    I s' ((tr.filterMap writer).foldl effect c) := by
  induction h generalizing c with
  | nil s => exact hrel
  | @cons s u s' e r tr hstep hrest ih =>
      have hlater : ∀ c, I u c → I s' ((tr.filterMap writer).foldl effect c) := by
        intro c hu
        refine ih hu fun a entry b i s₁ s₂ c htr hwriter hbefore => ?_
        subst htr
        exact hwrite (⟨e, r⟩ :: a) entry b i s₁ s₂ c rfl hwriter (.cons hstep hbefore)
      rw [List.filterMap_cons]
      rcases hwriter : writer ⟨e, r⟩ with _ | i
      · exact hlater c (hkeep _ hwriter s u c hstep hrel)
      · exact hlater _ (hwrite [] ⟨e, r⟩ tr i s u c rfl hwriter (.nil s) hstep hrest hrel)

/-! ### Calls that come last -/

/-- Once the world is closed none of the calls of `later` may be made, and the calls of `seals` close it. -/
structure World.Seals (W : World E R S) (closed : S → Prop) (seals later : E → Bool) : Prop where
  forbids : ∀ s e, closed s → W.pre s e → later e = false
  answers : ∀ s e r, ∃ t, W.step s e r t ∧ (closed s ∨ seals e = true → closed t)

/-- In such a world no call of `later` is made after one of `seals`. -/
theorem Prog.pairwise_of_sealing {W : World E R S} {closed : S → Prop} {seals later : E → Bool}
    (hseals : W.Seals closed seals later) {p q : Prog E R α} {tr : List (Entry E R)} {Q : α → S → Prop} {s : S}
    (h : p.wp W Q s) (hsteps : Steps p tr q) :
    (closed s → ∀ entry ∈ tr, later entry.1 = false)
      ∧ tr.Pairwise fun x y => seals x.1 = true → later y.1 = false := by
  induction hsteps generalizing s with
  | refl p => simp
  | ask e k r hrest ih =>
      obtain ⟨t, hstep, hcloses⟩ := hseals.answers s e r
      obtain ⟨hlater, hpairs⟩ := ih (h.2 r t hstep)
      rw [List.pairwise_cons]
      refine ⟨fun hclosed entry hentry => ?_, fun entry hentry hsealed => ?_, hpairs⟩
      · rcases List.mem_cons.1 hentry with rfl | hmem
        · exact hseals.forbids s _ hclosed h.1
        · exact hlater (hcloses (.inl hclosed)) entry hmem
      · exact hlater (hcloses (.inr hsealed)) entry hentry

end Interaction
