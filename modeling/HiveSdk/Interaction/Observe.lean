import HiveSdk.Interaction.World

/-!
# Guards and observers

Two kinds of worlds that make no assumption about the answers, and the product of two worlds. A guard only allows some calls; what is proved in it holds in every world that copes with these calls, which is the frame rule below. An observer allows every call and keeps what it wants to remember of the answers, so that the result of a run can be stated in terms of the trace.
-/

namespace Interaction

variable {E : Type} {R : E → Type} {S σ α β : Type}

/-! ### Runs and results -/

theorem run_map_iff (p : Prog E R α) (f : α → β) {tr : List (Entry E R)} {b : β} :
    Run (f <$> p) tr b ↔ ∃ a, Run p tr a ∧ b = f a := by
  have hmap : f <$> p = p >>= fun a => .ret (f a) := map_eq_pure_bind f p
  rw [hmap, run_bind_iff]
  constructor
  · rintro ⟨a, tr₁, tr₂, rfl, h₁, h₂⟩
    obtain ⟨rfl, rfl⟩ := run_ret_iff.1 h₂
    exact ⟨a, by rwa [List.append_nil], rfl⟩
  · rintro ⟨a, h, rfl⟩
    exact ⟨a, tr, [], (List.append_nil _).symm, h, .refl _⟩

/-- The answers determine the result. -/
theorem Run.unique {p : Prog E R α} {tr : List (Entry E R)} {a b : α} (h : Run p tr a)
    (h' : Run p tr b) : a = b := by
  induction p generalizing tr with
  | ret c =>
      obtain ⟨-, rfl⟩ := run_ret_iff.1 h
      exact (run_ret_iff.1 h').2.symm
  | ask e k ih =>
      obtain ⟨r, rest, rfl, hrest⟩ := run_ask_iff.1 h
      obtain ⟨r', rest', htrace, hrest'⟩ := run_ask_iff.1 h'
      cases htrace
      exact ih r hrest hrest'

/-! ### Guards -/

/-- The world in which the calls of `φ` may be made and are answered in any way. -/
def World.guard (φ : E → Prop) : World E R Unit where
  pre _ e := φ e
  step _ _ _ _ := True

theorem World.guard_accepts (φ : E → Prop) (tr : List (Entry E R)) :
    (World.guard φ).Accepts () tr () := by
  induction tr with
  | nil => exact .nil _
  | cons entry tr ih => exact .cons trivial ih

/-- A program that keeps to the calls of `φ` gets the same results in any other world, and it leaves an invariant of these calls intact. -/
theorem Prog.wp_frame {φ : E → Prop} {W : World E R σ} {I : σ → Prop} {P : α → Prop}
    {p : Prog E R α} {s : σ} (h : p.wp (World.guard φ) (fun a _ => P a) ())
    (hpre : ∀ t e, I t → φ e → W.pre t e)
    (hstep : ∀ t e r u, I t → φ e → W.step t e r u → I u) (hs : I s) :
    p.wp W (fun a t => P a ∧ I t) s := by
  induction p generalizing s with
  | ret a => exact ⟨h, hs⟩
  | ask e k ih =>
      refine ⟨hpre s e hs h.1, fun r t hanswer => ?_⟩
      exact ih r (h.2 r () trivial) (hstep s e r t hs h.1 hanswer)

/-- Every call of a run of such a program is one of `φ`. -/
theorem Prog.guard_calls {φ : E → Prop} {P : α → Prop} {p : Prog E R α} {tr : List (Entry E R)}
    {q : Prog E R α} (h : p.wp (World.guard φ) (fun a _ => P a) ()) (hsteps : Steps p tr q) :
    ∀ entry ∈ tr, φ entry.1 := by
  induction hsteps with
  | refl p =>
      intro entry hentry
      cases hentry
  | ask e k r hrest ih =>
      intro entry hentry
      rcases List.mem_cons.1 hentry with rfl | hmem
      · exact h.1
      · exact ih (h.2 r () trivial) entry hmem

namespace Proc

variable {φ : E → Prop} {P : α → S → Prop} {m : Proc E R S α} {st : S}

/-- `Prog.wp_frame` for a program with a local state. -/
theorem wp_frame {W : World E R σ} {I : σ → Prop} {Q : α → S → σ → Prop} {s : σ}
    (h : wp (World.guard φ) m (fun a st' _ => P a st') st ())
    (hpre : ∀ t e, I t → φ e → W.pre t e)
    (hstep : ∀ t e r u, I t → φ e → W.step t e r u → I u) (hs : I s)
    (hQ : ∀ a st' t, P a st' → I t → Q a st' t) : wp W m Q st s := by
  have hframe := Prog.wp_frame h hpre hstep hs
  exact Prog.wp_mono (fun x t hx => hQ x.1 x.2 t hx.1 hx.2) hframe

/-- A guard that allows more can only help. -/
theorem wp_guard_mono {ψ : E → Prop} {Q : α → S → Unit → Prop} (hφ : ∀ e, φ e → ψ e)
    (h : wp (World.guard φ) m (fun a st' _ => P a st') st ()) (hQ : ∀ a st', P a st' → Q a st' ()) :
    wp (World.guard ψ) m Q st () := by
  have hpre : ∀ (t : Unit) e, True → φ e → (World.guard ψ : World E R Unit).pre t e := fun _ e _ he => hφ e he
  exact wp_frame h hpre (fun _ _ _ _ _ _ _ => trivial) trivial fun a st' _ hP _ => hQ a st' hP

@[simp] theorem wp_guard_call (e : E) (Q : R e → S → Unit → Prop) :
    wp (World.guard φ) (call e : Proc E R S (R e)) Q st () ↔ φ e ∧ ∀ r, Q r st () := by
  rw [wp_call]
  constructor
  · intro h
    exact ⟨h.1, fun r => h.2 r () trivial⟩
  · intro h
    exact ⟨h.1, fun r _ _ => h.2 r⟩

end Proc

/-! ### Monitors and observers -/

/-- The world in which a call may be made when `φ` holds of what has been observed so far. -/
def World.monitor (φ : σ → E → Prop) (observe : σ → Entry E R → σ) : World E R σ where
  pre := φ
  step s e r t := t = observe s ⟨e, r⟩

theorem World.monitor_accepts (φ : σ → E → Prop) (observe : σ → Entry E R → σ) (s : σ)
    (tr : List (Entry E R)) : (World.monitor φ observe).Accepts s tr (tr.foldl observe s) := by
  induction tr generalizing s with
  | nil => exact .nil s
  | cons entry tr ih => exact .cons rfl (ih _)

/-- Every call of a run is one that may be made. -/
theorem Prog.monitor_calls {φ : E → Prop} {observe : σ → Entry E R → σ} {Q : α → σ → Prop}
    {p q : Prog E R α} {s : σ} {tr : List (Entry E R)}
    (h : p.wp (World.monitor (fun _ => φ) observe) Q s) (hsteps : Steps p tr q) :
    ∀ entry ∈ tr, φ entry.1 := by
  induction hsteps generalizing s with
  | refl p =>
      intro entry hentry
      cases hentry
  | ask e k r hrest ih =>
      intro entry hentry
      rcases List.mem_cons.1 hentry with rfl | hmem
      · exact h.1
      · exact ih (h.2 r _ rfl) entry hmem

/-- The world in which every call may be made, with a state that is computed from the answers. -/
def World.observer (observe : σ → Entry E R → σ) : World E R σ where
  pre _ _ := True
  step s e r t := t = observe s ⟨e, r⟩

theorem World.observer_accepts (observe : σ → Entry E R → σ) (s : σ) (tr : List (Entry E R)) :
    (World.observer observe).Accepts s tr (tr.foldl observe s) :=
  World.monitor_accepts (fun _ _ => True) observe s tr

namespace Proc

variable {observe : σ → Entry E R → σ} {m : Proc E R S α} {st : S} {s : σ}

@[simp] theorem wp_monitor_call {φ : σ → E → Prop} (e : E) (Q : R e → S → σ → Prop) :
    wp (World.monitor φ observe) (call e : Proc E R S (R e)) Q st s
      ↔ φ s e ∧ ∀ r, Q r st (observe s ⟨e, r⟩) := by
  rw [wp_call]
  constructor
  · intro h
    exact ⟨h.1, fun r => h.2 r _ rfl⟩
  · rintro h
    refine ⟨h.1, fun r t hstep => ?_⟩
    rw [show t = observe s ⟨e, r⟩ from hstep]
    exact h.2 r

@[simp] theorem wp_observer_call (e : E) (Q : R e → S → σ → Prop) :
    wp (World.observer observe) (call e : Proc E R S (R e)) Q st s
      ↔ ∀ r, Q r st (observe s ⟨e, r⟩) := by
  rw [wp_call]
  constructor
  · intro h r
    exact h.2 r _ rfl
  · rintro h
    refine ⟨trivial, fun r t hstep => ?_⟩
    rw [show t = observe s ⟨e, r⟩ from hstep]
    exact h r

/-- A specification in a monitor's world, read back on a run. -/
theorem monitored {φ : σ → E → Prop} {Q : α → S → σ → Prop} {tr : List (Entry E R)} {a : α} {st' : S}
    (h : wp (World.monitor φ observe) m Q st s) (hrun : Run (m st) tr (a, st')) :
    Q a st' (tr.foldl observe s) := by
  have hwp : (m st).wp (World.monitor φ observe) (fun x t => Q x.1 x.2 t) s := h
  have hresult := Prog.wp_run hwp hrun (World.monitor_accepts φ observe s tr)
  exact hresult

theorem observed {Q : α → S → σ → Prop} {tr : List (Entry E R)} {a : α} {st' : S}
    (h : wp (World.observer observe) m Q st s) (hrun : Run (m st) tr (a, st')) :
    Q a st' (tr.foldl observe s) := monitored h hrun

/-- An observer does not notice a program that keeps to calls it ignores. -/
theorem wp_unobserved {φ : E → Prop} {P : α → S → Prop} {Q : α → S → σ → Prop}
    (h : wp (World.guard φ) m (fun a st' _ => P a st') st ())
    (hignored : ∀ e r, φ e → observe s ⟨e, r⟩ = s) (hQ : ∀ a st', P a st' → Q a st' s) :
    wp (World.observer observe) m Q st s := by
  have hstep : ∀ t e r u, t = s → φ e → (World.observer observe).step t e r u → u = s := by
    rintro t e r u rfl he hstep
    exact hstep.trans (hignored e r he)
  refine wp_frame h (fun _ _ _ _ => trivial) hstep rfl fun a st' t hP ht => ?_
  rw [ht]
  exact hQ a st' hP

end Proc

/-! ### Two worlds at once -/

/-- Two environments that answer the same calls: a call may be made when both allow it, and an answer is one that both give. -/
def World.prod {τ : Type} (W : World E R σ) (V : World E R τ) : World E R (σ × τ) where
  pre x e := W.pre x.1 e ∧ V.pre x.2 e
  step x e r y := W.step x.1 e r y.1 ∧ V.step x.2 e r y.2

section
variable {τ : Type} {W : World E R σ} {V : World E R τ} {s : σ} {v : τ}

theorem World.prod_accepts {t : σ} {u : τ} {tr : List (Entry E R)} (h : W.Accepts s tr t)
    (h' : V.Accepts v tr u) : (W.prod V).Accepts (s, v) tr (t, u) := by
  induction h generalizing v with
  | nil s =>
      rw [World.accepts_nil_iff.1 h']
      exact .nil _
  | cons hstep hrest ih =>
      obtain ⟨w, hstep', hrest'⟩ := World.accepts_cons_iff.1 h'
      exact .cons ⟨hstep, hstep'⟩ (ih hrest')

/-- What is known from either world is known from both. -/
theorem Prog.wp_prod {p : Prog E R α} {Q : α → σ → Prop} {Q' : α → τ → Prop} (h : p.wp W Q s)
    (h' : p.wp V Q' v) : p.wp (W.prod V) (fun a x => Q a x.1 ∧ Q' a x.2) (s, v) := by
  induction p generalizing s v with
  | ret a => exact ⟨h, h'⟩
  | ask e k ih =>
      exact ⟨⟨h.1, h'.1⟩, fun r x hstep => ih r (h.2 r x.1 hstep.1) (h'.2 r x.2 hstep.2)⟩

theorem Proc.wp_prod {m : Proc E R S α} {st : S} {Q : α → S → σ → Prop} {Q' : α → S → τ → Prop}
    {P : α → S → σ × τ → Prop} (h : wp W m Q st s) (h' : wp V m Q' st v)
    (hP : ∀ a st' t u, Q a st' t → Q' a st' u → P a st' (t, u)) : wp (W.prod V) m P st (s, v) :=
  Prog.wp_mono (fun x t hx => hP x.1 x.2 t.1 t.2 hx.1 hx.2) (Prog.wp_prod h h')

end

end Interaction
