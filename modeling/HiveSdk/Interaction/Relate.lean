import HiveSdk.Interaction.Observe

/-!
# Two runs of one program

A program is started from two local states. As long as both starts make the same calls, an answer to one is an answer to the other, so a run of the first is matched by a run of the second with the same trace, and what has to be said is how their results are related. The rules follow the program, as those of `wp` do.
-/

namespace Interaction

variable {E : Type} {R : E → Type} {S α β γ δ : Type}

/-- Both programs make the same calls, whatever they are answered, and their results are related by `P`. -/
inductive Prog.Rel (P : α → β → Prop) : Prog E R α → Prog E R β → Prop
  | ret {a : α} {b : β} (h : P a b) : Rel P (.ret a) (.ret b)
  | ask (e : E) {k : R e → Prog E R α} {k' : R e → Prog E R β} (h : ∀ r, Rel P (k r) (k' r)) :
      Rel P (.ask e k) (.ask e k')

namespace Prog.Rel

variable {P P' : α → β → Prop} {p : Prog E R α} {q : Prog E R β}

theorem mono (h : Rel P p q) (hP : ∀ a b, P a b → P' a b) : Rel P' p q := by
  induction h with
  | ret h => exact .ret (hP _ _ h)
  | ask e _ ih => exact .ask e ih

theorem refl {P : α → α → Prop} (hP : ∀ a, P a a) (p : Prog E R α) : Rel P p p := by
  induction p with
  | ret a => exact .ret (hP a)
  | ask e k ih => exact .ask e ih

theorem bind {P' : γ → δ → Prop} {f : α → Prog E R γ} {g : β → Prog E R δ} (h : Rel P p q)
    (hf : ∀ a b, P a b → Rel P' (f a) (g b)) : Rel P' (p >>= f) (q >>= g) := by
  induction h with
  | ret h => exact hf _ _ h
  | ask e _ ih => exact .ask e ih

/-- A run of the first program is one of the second, with a related result. -/
theorem run {tr : List (Entry E R)} {a : α} (h : Rel P p q) (hrun : Run p tr a) :
    ∃ b, Run q tr b ∧ P a b := by
  induction h generalizing tr with
  | ret h =>
      obtain ⟨rfl, rfl⟩ := run_ret_iff.1 hrun
      exact ⟨_, .refl _, h⟩
  | ask e _ ih =>
      obtain ⟨r, rest, rfl, hrest⟩ := run_ask_iff.1 hrun
      obtain ⟨b, hrun', hP⟩ := ih r hrest
      exact ⟨b, .ask e _ r hrun', hP⟩

end Prog.Rel

/-- A run of a sequence, for programs with a local state. -/
theorem Proc.run_bind_iff {m : Proc E R S α} {f : α → Proc E R S β} {st : S}
    {tr : List (Entry E R)} {x : β × S} :
    Run ((m >>= f) st) tr x
      ↔ ∃ a st' tr₁ tr₂, tr = tr₁ ++ tr₂ ∧ Run (m st) tr₁ (a, st') ∧ Run (f a st') tr₂ x := by
  constructor
  · intro h
    obtain ⟨⟨a, st'⟩, tr₁, tr₂, htr, h₁, h₂⟩ := (Interaction.run_bind_iff (m st) _).1 h
    exact ⟨a, st', tr₁, tr₂, htr, h₁, h₂⟩
  · rintro ⟨a, st', tr₁, tr₂, rfl, h₁, h₂⟩
    exact Interaction.run_bind h₁ h₂

/-! ### A part of the state that is not looked at -/

/-- `set` writes one part of the local state. A program is blind to it if it neither reads nor writes it: from a state in which it is different, the program does the same and leaves it different. -/
def Blind (set : β → S → S) (m : Proc E R S α) : Prop :=
  ∀ st b, Prog.Rel (fun x y => y = (x.1, set b x.2)) (m st) (m (set b st))

namespace Blind

variable {set : β → S → S} {m : Proc E R S α}

theorem pure (a : α) : Blind set (pure a : Proc E R S α) := fun _ _ => .ret rfl

theorem call (e : E) : Blind set (call e : Proc E R S (R e)) := fun _ _ => .ask e fun _ => .ret rfl

theorem bind {f : α → Proc E R S γ} (h : Blind set m) (hf : ∀ a, Blind set (f a)) :
    Blind set (m >>= f) := by
  intro st b
  apply Prog.Rel.bind (h st b)
  rintro x _ rfl
  exact hf x.1 x.2 b

theorem ite {c : Prop} [Decidable c] {m' : Proc E R S α} (h : Blind set m) (h' : Blind set m') :
    Blind set (if c then m else m') := by
  split
  · exact h
  · exact h'

theorem modify {f : S → S} (h : ∀ b st, f (set b st) = set b (f st)) :
    Blind set (modify f : Proc E R S PUnit) := by
  intro st b
  exact .ret (Prod.ext rfl (h b st))

/-- The state may be read for what does not depend on the part. -/
theorem get {f : S → Proc E R S γ} (hf : ∀ st, Blind set (f st)) (hread : ∀ b st, f (set b st) = f st) :
    Blind set (get >>= f) := by
  intro st b
  show Prog.Rel _ (f st st) (f (set b st) (set b st))
  rw [hread]
  exact hf st st b

theorem run {st st' : S} {b : β} {tr : List (Entry E R)} {a : α} (h : Blind set m)
    (hrun : Run (m st) tr (a, st')) : Run (m (set b st)) tr (a, set b st') := by
  obtain ⟨y, hrun', rfl⟩ := (h st b).run hrun
  exact hrun'

end Blind

end Interaction
