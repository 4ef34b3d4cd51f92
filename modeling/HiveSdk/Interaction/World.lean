import HiveSdk.Interaction.Prog

/-!
# Worlds and weakest preconditions

A world says which calls may be made in which of its states and how it answers them. `Prog.wp` is the usual weakest precondition of a program in a world, and `Proc.wp` the same for a program with a local state. The two soundness theorems at the end read a weakest precondition back as a statement about traces: about the result of every complete run, and about every call of every run.
-/

namespace Interaction

variable {E : Type} {R : E → Type} {S σ α β : Type}

/-- An environment with states `σ`. `pre s e` is what has to hold when the call `e` is made, and `step s e r s'` says that `e` may be answered with `r`. -/
structure World (E : Type) (R : E → Type) (σ : Type) where
  pre : σ → E → Prop
  step : σ → (e : E) → R e → σ → Prop

namespace World

/-- The world answers the calls of the trace as the trace says. -/
inductive Accepts (W : World E R σ) : σ → List (Entry E R) → σ → Prop
  | nil (s : σ) : Accepts W s [] s
  | cons {s t u : σ} {e : E} {r : R e} {tr : List (Entry E R)}
      (hstep : W.step s e r t) (hrest : Accepts W t tr u) : Accepts W s (⟨e, r⟩ :: tr) u

theorem accepts_nil_iff {W : World E R σ} {s t : σ} : W.Accepts s [] t ↔ t = s := by
  constructor
  · intro h
    cases h
    rfl
  · rintro rfl
    exact .nil _

theorem accepts_cons_iff {W : World E R σ} {s u : σ} {e : E} {r : R e} {tr : List (Entry E R)} :
    W.Accepts s (⟨e, r⟩ :: tr) u ↔ ∃ t, W.step s e r t ∧ W.Accepts t tr u := by
  constructor
  · intro h
    cases h with
    | cons hstep hrest => exact ⟨_, hstep, hrest⟩
  · rintro ⟨t, hstep, hrest⟩
    exact .cons hstep hrest

theorem accepts_append_iff {W : World E R σ} {s u : σ} {tr₁ tr₂ : List (Entry E R)} :
    W.Accepts s (tr₁ ++ tr₂) u ↔ ∃ t, W.Accepts s tr₁ t ∧ W.Accepts t tr₂ u := by
  induction tr₁ generalizing s with
  | nil =>
      constructor
      · intro h
        exact ⟨s, .nil s, h⟩
      · rintro ⟨t, h₁, h₂⟩
        rwa [← accepts_nil_iff.1 h₁]
  | cons entry tr₁ ih =>
      obtain ⟨e, r⟩ := entry
      rw [List.cons_append, accepts_cons_iff]
      constructor
      · rintro ⟨t, hstep, hrest⟩
        obtain ⟨v, h₁, h₂⟩ := ih.1 hrest
        exact ⟨v, .cons hstep h₁, h₂⟩
      · rintro ⟨v, h₁, h₂⟩
        obtain ⟨t, hstep, h₁⟩ := accepts_cons_iff.1 h₁
        exact ⟨t, hstep, ih.2 ⟨v, h₁, h₂⟩⟩

/-- What is accepted depends on the answers only. -/
theorem Accepts.mono {W W' : World E R σ} {s t : σ} {tr : List (Entry E R)} (h : W.Accepts s tr t)
    (hstep : ∀ s e r t, W.step s e r t → W'.step s e r t) : W'.Accepts s tr t := by
  induction h with
  | nil s => exact .nil s
  | cons h _ ih => exact .cons (hstep _ _ _ _ h) ih

/-- What each step of the trace keeps is true at its end. -/
theorem Accepts.keeps {W : World E R σ} {I : σ → Prop} {s t : σ} {tr : List (Entry E R)} (h : W.Accepts s tr t)
    (hs : I s) (hstep : ∀ e r s t, ⟨e, r⟩ ∈ tr → W.step s e r t → I s → I t) : I t := by
  induction h with
  | nil s => exact hs
  | @cons s u t e r tr hfirst hrest ih =>
      have hu : I u := hstep e r s u List.mem_cons_self hfirst hs
      exact ih hu fun e r s t hmem => hstep e r s t (List.mem_cons_of_mem _ hmem)

/-- The same world, in which a call may only be made when there is an answer to it. A program that meets its postcondition here also returns. -/
def responsive (W : World E R σ) : World E R σ where
  pre s e := W.pre s e ∧ ∃ r t, W.step s e r t
  step := W.step

theorem accepts_responsive_iff {W : World E R σ} {s t : σ} {tr : List (Entry E R)} :
    W.responsive.Accepts s tr t ↔ W.Accepts s tr t :=
  ⟨fun h => h.mono fun _ _ _ _ hstep => hstep, fun h => h.mono fun _ _ _ _ hstep => hstep⟩

end World

/-! ### Weakest preconditions -/

/-- Every call of `p` meets its precondition, and every result of `p` satisfies `Q`. -/
def Prog.wp (W : World E R σ) : Prog E R α → (α → σ → Prop) → σ → Prop
  | .ret a, Q, s => Q a s
  | .ask e k, Q, s => W.pre s e ∧ ∀ r t, W.step s e r t → (k r).wp W Q t

namespace Prog

variable {W : World E R σ} {Q Q' : α → σ → Prop} {s : σ}

theorem wp_mono {p : Prog E R α} (hQ : ∀ a t, Q a t → Q' a t) (h : p.wp W Q s) : p.wp W Q' s := by
  induction p generalizing s with
  | ret a => exact hQ a s h
  | ask e k ih => exact ⟨h.1, fun r t hstep => ih r (h.2 r t hstep)⟩

/-- In a world where every call may be made, a postcondition that always holds is met. -/
theorem wp_of_forall {p : Prog E R α} (hpre : ∀ t e, W.pre t e) (hQ : ∀ a t, Q a t) : p.wp W Q s := by
  induction p generalizing s with
  | ret a => exact hQ a s
  | ask e k ih => exact ⟨hpre s e, fun r t _ => ih r⟩

/-- A world that allows more calls and gives fewer answers. -/
theorem wp_weaken {W' : World E R σ} {p : Prog E R α} (hpre : ∀ s e, W.pre s e → W'.pre s e)
    (hstep : ∀ s e r t, W'.step s e r t → W.step s e r t) (h : p.wp W Q s) : p.wp W' Q s := by
  induction p generalizing s with
  | ret a => exact h
  | ask e k ih => exact ⟨hpre s e h.1, fun r t ht => ih r (h.2 r t (hstep s e r t ht))⟩

/-- Two postconditions are met together. -/
theorem wp_and {p : Prog E R α} (h : p.wp W Q s) (h' : p.wp W Q' s) :
    p.wp W (fun a t => Q a t ∧ Q' a t) s := by
  induction p generalizing s with
  | ret a => exact ⟨h, h'⟩
  | ask e k ih => exact ⟨h.1, fun r t hstep => ih r (h.2 r t hstep) (h'.2 r t hstep)⟩

/-- What is known of the results is known of them in the responsive world too. -/
theorem wp_responsive_and {p : Prog E R α} (h : p.wp W.responsive Q s) (h' : p.wp W Q' s) :
    p.wp W.responsive (fun a t => Q a t ∧ Q' a t) s := by
  induction p generalizing s with
  | ret a => exact ⟨h, h'⟩
  | ask e k ih => exact ⟨h.1, fun r t hstep => ih r (h.2 r t hstep) (h'.2 r t hstep)⟩

theorem wp_bind_iff (p : Prog E R α) (f : α → Prog E R β) (Q : β → σ → Prop) :
    (p >>= f).wp W Q s ↔ p.wp W (fun a => (f a).wp W Q) s := by
  induction p generalizing s with
  | ret a => rfl
  | ask e k ih =>
      rw [ask_bind]
      simp only [wp, ih]

/-- Soundness for complete runs. -/
theorem wp_run {p : Prog E R α} {tr : List (Entry E R)} {a : α} {t : σ}
    (h : p.wp W Q s) (hrun : Run p tr a) (hacc : W.Accepts s tr t) : Q a t := by
  induction p generalizing s tr with
  | ret b =>
      obtain ⟨rfl, rfl⟩ := run_ret_iff.1 hrun
      rw [World.accepts_nil_iff.1 hacc]
      exact h
  | ask e k ih =>
      obtain ⟨r, rest, rfl, hrest⟩ := run_ask_iff.1 hrun
      obtain ⟨u, hstep, hacc⟩ := World.accepts_cons_iff.1 hacc
      exact ih r (h.2 r u hstep) hrest hacc

/-- What is left of a program after some of its calls still meets the postcondition. -/
theorem wp_after {p q : Prog E R α} {tr : List (Entry E R)} {t : σ} (h : p.wp W Q s) (hsteps : Steps p tr q)
    (hacc : W.Accepts s tr t) : q.wp W Q t := by
  induction hsteps generalizing s with
  | refl p =>
      rw [World.accepts_nil_iff.1 hacc]
      exact h
  | ask e k r hrest ih =>
      obtain ⟨u, hstep, hacc⟩ := World.accepts_cons_iff.1 hacc
      exact ih (h.2 r u hstep) hacc

/-- Soundness for the calls: a call that a run has come to meets its precondition. -/
theorem wp_steps {p : Prog E R α} {tr : List (Entry E R)} {e : E} {k : R e → Prog E R α} {t : σ}
    (h : p.wp W Q s) (hsteps : Steps p tr (.ask e k)) (hacc : W.Accepts s tr t) : W.pre t e := by
  induction p generalizing s tr with
  | ret b => cases hsteps
  | ask e' k' ih =>
      cases hsteps with
      | refl =>
          rw [World.accepts_nil_iff.1 hacc]
          exact h.1
      | ask _ _ r hrest =>
          obtain ⟨u, hstep, hacc⟩ := World.accepts_cons_iff.1 hacc
          exact ih r (h.2 r u hstep) hrest hacc

/-- A program that meets its postcondition in a responsive world has a run there. -/
theorem exists_run_of_wp {p : Prog E R α} (h : p.wp W.responsive Q s) :
    ∃ tr a t, Run p tr a ∧ W.Accepts s tr t ∧ Q a t := by
  induction p generalizing s with
  | ret a => exact ⟨[], a, s, .refl _, .nil s, h⟩
  | ask e k ih =>
      obtain ⟨r, t, hstep⟩ := h.1.2
      obtain ⟨tr, a, u, hrun, hacc, hQ⟩ := ih r (h.2 r t hstep)
      exact ⟨⟨e, r⟩ :: tr, a, u, .ask e k r hrun, .cons hstep hacc, hQ⟩

end Prog

/-! ### The same with a local state -/

/-- `Prog.wp` for a program with a local state. -/
def Proc.wp (W : World E R σ) (m : Proc E R S α) (Q : α → S → σ → Prop) (st : S) (s : σ) : Prop :=
  (m st).wp W (fun x t => Q x.1 x.2 t) s

namespace Proc

variable {W : World E R σ} {Q Q' : α → S → σ → Prop} {st : S} {s : σ}

theorem wp_mono {m : Proc E R S α} (hQ : ∀ a st' t, Q a st' t → Q' a st' t) (h : wp W m Q st s) :
    wp W m Q' st s :=
  Prog.wp_mono (fun x t => hQ x.1 x.2 t) h

theorem wp_of_forall {m : Proc E R S α} (hpre : ∀ t e, W.pre t e) (hQ : ∀ a st' t, Q a st' t) :
    wp W m Q st s := Prog.wp_of_forall hpre fun x t => hQ x.1 x.2 t

@[simp] theorem wp_pure (a : α) : wp W (pure a : Proc E R S α) Q st s ↔ Q a st s := Iff.rfl

@[simp] theorem wp_bind (m : Proc E R S α) (f : α → Proc E R S β) (Q : β → S → σ → Prop) :
    wp W (m >>= f) Q st s ↔ wp W m (fun a => wp W (f a) Q) st s :=
  Prog.wp_bind_iff (m st) _ _

@[simp] theorem wp_map (m : Proc E R S α) (f : α → β) (Q : β → S → σ → Prop) :
    wp W (f <$> m) Q st s ↔ wp W m (fun a => Q (f a)) st s :=
  Prog.wp_bind_iff (m st) _ _

@[simp] theorem wp_get (Q : S → S → σ → Prop) :
    wp W (get : Proc E R S S) Q st s ↔ Q st st s := Iff.rfl

@[simp] theorem wp_set (st' : S) (Q : PUnit → S → σ → Prop) :
    wp W (set st' : Proc E R S PUnit) Q st s ↔ Q .unit st' s := Iff.rfl

@[simp] theorem wp_modify (f : S → S) (Q : PUnit → S → σ → Prop) :
    wp W (modify f : Proc E R S PUnit) Q st s ↔ Q .unit (f st) s := Iff.rfl

@[simp] theorem wp_call (e : E) (Q : R e → S → σ → Prop) :
    wp W (call e : Proc E R S (R e)) Q st s
      ↔ W.pre s e ∧ ∀ r t, W.step s e r t → Q r st t := Iff.rfl

@[simp] theorem wp_ite (c : Prop) [Decidable c] (m m' : Proc E R S α) :
    wp W (if c then m else m') Q st s ↔ (c → wp W m Q st s) ∧ (¬c → wp W m' Q st s) := by
  by_cases hc : c <;> simp [hc]

/-- A rule for the middle of a proof: the calls of `m` are dealt with by a specification of `m`, and only its postcondition is left. -/
theorem wp_bind_of {m : Proc E R S α} {f : α → Proc E R S β} {P : α → S → σ → Prop}
    {Q : β → S → σ → Prop} (hm : wp W m P st s)
    (hf : ∀ a st' t, P a st' t → wp W (f a) Q st' t) : wp W (m >>= f) Q st s :=
  (wp_bind m f Q).2 (wp_mono hf hm)

/-- A postcondition that is met in a responsive world holds somewhere. -/
theorem exists_of_wp {m : Proc E R S α} (h : wp W.responsive m Q st s) : ∃ a st' t, Q a st' t := by
  obtain ⟨tr, x, t, -, -, hQ⟩ := Prog.exists_run_of_wp h
  exact ⟨x.1, x.2, t, hQ⟩

/-- Where a program is certain to return, and the result and both states behind it are known, it meets the postconditions that these meet, and no others. -/
theorem wp_responsive_iff {m : Proc E R S α} {a₀ : α} {st₀ : S} {s₀ : σ}
    (h : wp W.responsive m (fun a st' t => a = a₀ ∧ st' = st₀ ∧ t = s₀) st s)
    (Q : α → S → σ → Prop) : wp W.responsive m Q st s ↔ Q a₀ st₀ s₀ := by
  constructor
  · intro hQ
    obtain ⟨tr, x, t, -, -, hboth, rfl, rfl, rfl⟩ := Prog.exists_run_of_wp (Prog.wp_and hQ h)
    exact hboth
  · intro hQ
    refine wp_mono (fun a st' t hsure => ?_) h
    obtain ⟨rfl, rfl, rfl⟩ := hsure
    exact hQ

/-- A call with one answer, which leaves the world as it is. -/
theorem wp_responsive_call {e : E} (r₀ : R e) (hpre : W.pre s e)
    (h : ∀ r t, W.step s e r t ↔ r = r₀ ∧ t = s) (Q : R e → S → σ → Prop) :
    wp W.responsive (call e : Proc E R S (R e)) Q st s ↔ Q r₀ st s := by
  apply wp_responsive_iff
  rw [wp_call]
  refine ⟨⟨hpre, r₀, s, (h r₀ s).2 ⟨rfl, rfl⟩⟩, fun r t hstep => ?_⟩
  obtain ⟨rfl, rfl⟩ := (h r t).1 hstep
  exact ⟨rfl, rfl, rfl⟩

end Proc

end Interaction
