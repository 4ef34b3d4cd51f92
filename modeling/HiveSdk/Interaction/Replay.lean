import HiveSdk.Interaction.Prog

/-!
# Replaying a trace

A run can be found by computation: the program is given the answers of the trace, as long as it makes the calls of the trace. So can the call that comes after a trace.
-/

namespace Interaction

variable {E : Type} {R : E → Type} {α : Type} [DecidableEq E]

/-- The result of a program with the answers of a trace, if it makes the calls of the trace. -/
def Prog.replay : Prog E R α → List (Entry E R) → Option α
  | .ret a, [] => some a
  | .ask e k, ⟨e', r⟩ :: tr => if h : e' = e then (k (h ▸ r)).replay tr else none
  | _, _ => none

theorem Prog.run_of_replay {p : Prog E R α} {tr : List (Entry E R)} {a : α} (h : p.replay tr = some a) : Run p tr a := by
  induction p generalizing tr with
  | ret b =>
      cases tr with
      | nil =>
          obtain rfl := Option.some.inj h
          exact .refl _
      | cons entry tr => cases h
  | ask e k ih =>
      cases tr with
      | nil => cases h
      | cons entry tr =>
          obtain ⟨e', r⟩ := entry
          rw [Prog.replay] at h
          split at h
          · rename_i heq
            subst heq
            exact .ask e' k r (ih r h)
          · cases h

/-- The call that a program makes after the calls of the trace. -/
def Prog.nextCall : Prog E R α → List (Entry E R) → Option E
  | .ask e _, [] => some e
  | .ask e k, ⟨e', r⟩ :: tr => if h : e' = e then (k (h ▸ r)).nextCall tr else none
  | .ret _, _ => none

theorem Prog.steps_of_nextCall {p : Prog E R α} {tr : List (Entry E R)} {e : E} (h : p.nextCall tr = some e) :
    ∃ k, Steps p tr (.ask e k) := by
  induction p generalizing tr with
  | ret b => cases tr <;> cases h
  | ask e₀ k ih =>
      cases tr with
      | nil =>
          obtain rfl := Option.some.inj h
          exact ⟨k, .refl _⟩
      | cons entry tr =>
          obtain ⟨e', r⟩ := entry
          rw [Prog.nextCall] at h
          split at h
          · rename_i heq
            subst heq
            obtain ⟨k', hsteps⟩ := ih r h
            exact ⟨k', .ask e' k r hsteps⟩
          · cases h

end Interaction
