import Mathlib.Control.Basic
import Mathlib.Data.List.Basic

/-!
# Programs that call an environment

A program is a well-founded tree of calls: each node makes one call and continues on the answer. What the calls mean is left to the environment, so the same tree is run against an honest server, an arbitrary one, or next to other programs that use the same server.
-/

namespace Interaction

/-- A program over the calls `E`, where the call `e` is answered by a value of `R e`. -/
inductive Prog (E : Type) (R : E → Type) (α : Type) : Type
  | ret (a : α)
  | ask (e : E) (k : R e → Prog E R α)

variable {E : Type} {R : E → Type} {S α β γ : Type}

namespace Prog

def bind : Prog E R α → (α → Prog E R β) → Prog E R β
  | .ret a, f => f a
  | .ask e k, f => .ask e fun r => (k r).bind f

instance : Monad (Prog E R) where
  pure := .ret
  bind := bind

@[simp] theorem pure_eq (a : α) : (pure a : Prog E R α) = .ret a := rfl

@[simp] theorem ret_bind (a : α) (f : α → Prog E R β) : (Prog.ret a >>= f) = f a := rfl

@[simp] theorem ask_bind (e : E) (k : R e → Prog E R α) (f : α → Prog E R β) :
    (Prog.ask e k >>= f) = .ask e fun r => k r >>= f := rfl

theorem bind_ret (p : Prog E R α) : (p >>= Prog.ret) = p := by
  induction p with
  | ret a => rfl
  | ask e k ih =>
      rw [ask_bind]
      exact congrArg _ (funext ih)

theorem bind_bind (p : Prog E R α) (f : α → Prog E R β) (g : β → Prog E R γ) :
    ((p >>= f) >>= g) = (p >>= fun a => f a >>= g) := by
  induction p with
  | ret a => rfl
  | ask e k ih =>
      simp only [ask_bind]
      exact congrArg _ (funext ih)

instance : LawfulMonad (Prog E R) := LawfulMonad.mk' _ bind_ret ret_bind bind_bind

end Prog

/-! ### Traces -/

/-- One call of a trace with the answer it got. -/
abbrev Entry (E : Type) (R : E → Type) := (e : E) × R e

/-- `p` makes the calls of the trace, gets the answers of the trace, and is left with `q`. -/
inductive Steps : Prog E R α → List (Entry E R) → Prog E R α → Prop
  | refl (p : Prog E R α) : Steps p [] p
  | ask (e : E) (k : R e → Prog E R α) (r : R e) {tr : List (Entry E R)} {q : Prog E R α}
      (h : Steps (k r) tr q) : Steps (.ask e k) (⟨e, r⟩ :: tr) q

/-- A complete run: `p` makes the calls of the trace and returns `a`. -/
abbrev Run (p : Prog E R α) (tr : List (Entry E R)) (a : α) : Prop := Steps p tr (.ret a)

theorem run_ret_iff {a b : α} {tr : List (Entry E R)} :
    Run (.ret a : Prog E R α) tr b ↔ tr = [] ∧ b = a := by
  constructor
  · intro h
    cases h
    exact ⟨rfl, rfl⟩
  · rintro ⟨rfl, rfl⟩
    exact .refl _

theorem run_ask_iff {e : E} {k : R e → Prog E R α} {tr : List (Entry E R)} {a : α} :
    Run (.ask e k) tr a ↔ ∃ r rest, tr = ⟨e, r⟩ :: rest ∧ Run (k r) rest a := by
  constructor
  · intro h
    cases h with
    | ask _ _ r h => exact ⟨r, _, rfl, h⟩
  · rintro ⟨r, rest, rfl, h⟩
    exact .ask e k r h

/-- A run of a sequence is a run of the first program followed by a run of the second. -/
theorem run_bind_iff (p : Prog E R α) (f : α → Prog E R β) {tr : List (Entry E R)} {b : β} :
    Run (p >>= f) tr b ↔ ∃ a tr₁ tr₂, tr = tr₁ ++ tr₂ ∧ Run p tr₁ a ∧ Run (f a) tr₂ b := by
  induction p generalizing tr with
  | ret a =>
      rw [Prog.ret_bind]
      constructor
      · intro h
        exact ⟨a, [], tr, rfl, .refl _, h⟩
      · rintro ⟨a', tr₁, tr₂, rfl, h₁, h₂⟩
        obtain ⟨rfl, rfl⟩ := run_ret_iff.1 h₁
        exact h₂
  | ask e k ih =>
      rw [Prog.ask_bind, run_ask_iff]
      constructor
      · rintro ⟨r, rest, rfl, h⟩
        obtain ⟨a, tr₁, tr₂, rfl, h₁, h₂⟩ := (ih r).1 h
        exact ⟨a, ⟨e, r⟩ :: tr₁, tr₂, rfl, .ask e k r h₁, h₂⟩
      · rintro ⟨a, tr₁, tr₂, rfl, h₁, h₂⟩
        obtain ⟨r, rest, rfl, hrest⟩ := run_ask_iff.1 h₁
        exact ⟨r, rest ++ tr₂, rfl, (ih r).2 ⟨a, rest, tr₂, rfl, hrest, h₂⟩⟩

theorem run_bind {p : Prog E R α} {f : α → Prog E R β} {tr₁ tr₂ : List (Entry E R)} {a : α} {b : β}
    (h₁ : Run p tr₁ a) (h₂ : Run (f a) tr₂ b) : Run (p.bind f) (tr₁ ++ tr₂) b :=
  (run_bind_iff p f).2 ⟨a, tr₁, tr₂, rfl, h₁, h₂⟩

theorem steps_append_iff {p q : Prog E R α} {tr₁ tr₂ : List (Entry E R)} :
    Steps p (tr₁ ++ tr₂) q ↔ ∃ m, Steps p tr₁ m ∧ Steps m tr₂ q := by
  induction tr₁ generalizing p with
  | nil =>
      constructor
      · intro h
        exact ⟨p, .refl p, h⟩
      · rintro ⟨m, hm, h⟩
        cases hm
        exact h
  | cons entry tr₁ ih =>
      constructor
      · intro h
        cases h with
        | ask e k r h =>
            obtain ⟨m, hm, hq⟩ := ih.1 h
            exact ⟨m, .ask e k r hm, hq⟩
      · rintro ⟨m, hm, hq⟩
        cases hm with
        | ask e k r hm => exact .ask e k r (ih.2 ⟨m, hm, hq⟩)

/-! ### Programs with a state of their own -/

/-- A program with a local state `S`. -/
abbrev Proc (E : Type) (R : E → Type) (S : Type) := StateT S (Prog E R)

/-- One call, with the local state left alone. -/
def call (e : E) : Proc E R S (R e) := fun st => .ask e fun r => .ret (r, st)

end Interaction
