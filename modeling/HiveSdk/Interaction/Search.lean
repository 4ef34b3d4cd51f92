import HiveSdk.Interaction.Prog
import Mathlib.Data.List.Infix

/-!
# A search that stops at the first success

`List.findM?` asks a program about one element after the other. Its calls are those of the elements it comes to: all of them up to the first that is accepted.
-/

namespace Interaction

variable {E : Type} {R : E → Type} {S α : Type}

theorem findM?_append {m : Type → Type} [Monad m] [LawfulMonad m] (probe : α → m Bool) (as bs : List α) :
    (as ++ bs).findM? probe = (do
      match ← as.findM? probe with
      | some a => return some a
      | none => bs.findM? probe) := by
  induction as with
  | nil => simp [List.findM?]
  | cons a as ih =>
      rw [List.cons_append]
      simp only [List.findM?, bind_assoc]
      apply bind_congr
      intro accepted
      cases accepted with
      | true => simp
      | false => simp [ih]

/-- Elements that are never accepted can be left out. -/
theorem findM?_filter {m : Type → Type} [Monad m] [LawfulMonad m] {probe : α → m Bool} {keep : α → Bool}
    {as : List α} (h : ∀ a ∈ as, keep a = false → probe a = pure false) :
    (as.filter keep).findM? probe = as.findM? probe := by
  induction as with
  | nil => rfl
  | cons a as ih =>
      have hrest := ih fun b hb => h b (List.mem_cons_of_mem a hb)
      cases hkeep : keep a with
      | true =>
          rw [List.filter_cons_of_pos hkeep]
          simp only [List.findM?, hrest]
      | false =>
          rw [List.filter_cons_of_neg (by simp [hkeep]), hrest]
          simp only [List.findM?, h a List.mem_cons_self hkeep, pure_bind]

/-- The elements up to the first that is accepted. -/
def upTo (accepted : α → Bool) : List α → List α
  | [] => []
  | a :: as => if accepted a then [a] else a :: upTo accepted as

theorem upTo_prefix (accepted : α → Bool) (as : List α) : upTo accepted as <+: as := by
  induction as with
  | nil => exact List.prefix_refl []
  | cons a as ih =>
      rw [upTo]
      split
      · exact ⟨as, rfl⟩
      · exact List.cons_prefix_cons.2 ⟨rfl, ih⟩

/-- Only the last of them may be accepted. -/
theorem upTo_dropLast {accepted : α → Bool} {as : List α} {a : α}
    (h : a ∈ (upTo accepted as).dropLast) : accepted a = false := by
  induction as with
  | nil => cases h
  | cons b as ih =>
      rw [upTo] at h
      split at h
      case isTrue => cases h
      case isFalse hb =>
          by_cases hnil : upTo accepted as = []
          · rw [hnil] at h
            cases h
          · rw [List.dropLast_cons_of_ne_nil hnil] at h
            rcases List.mem_cons.1 h with rfl | hmem
            · exact eq_false_of_ne_true hb
            · exact ih hmem

theorem upTo_of_find {accepted : α → Bool} {as : List α} {a : α} (h : as.find? accepted = some a) :
    (upTo accepted as).getLast? = some a := by
  induction as with
  | nil => cases h
  | cons b as ih =>
      rw [upTo]
      by_cases hb : accepted b = true
      · rw [List.find?_cons_of_pos hb] at h
        rw [if_pos hb, ← h]
        rfl
      · rw [List.find?_cons_of_neg hb] at h
        rw [if_neg hb, List.getLast?_cons, ih h]
        rfl

theorem upTo_of_none {accepted : α → Bool} {as : List α} (h : as.find? accepted = none) :
    upTo accepted as = as := by
  induction as with
  | nil => rfl
  | cons b as ih =>
      have hb : ¬ accepted b = true := List.find?_eq_none.1 h b List.mem_cons_self
      rw [List.find?_cons_of_neg hb] at h
      rw [upTo, if_neg hb, ih h]

/-- The run of a search, when it is known how each question would be answered. -/
theorem run_findM? {probe : α → Proc E R S Bool} {st : S} {trace : α → List (Entry E R)}
    {accepted : α → Bool} {as : List α} (h : ∀ a ∈ as, Run (probe a st) (trace a) (accepted a, st)) :
    Run (as.findM? probe st) ((upTo accepted as).flatMap trace) (as.find? accepted, st) := by
  induction as with
  | nil => exact .refl _
  | cons a as ih =>
      have hprobe := h a List.mem_cons_self
      have hrest := ih fun b hb => h b (List.mem_cons_of_mem a hb)
      rw [upTo]
      cases haccepted : accepted a with
      | true =>
          rw [haccepted] at hprobe
          rw [if_pos rfl, List.find?_cons_of_pos haccepted, List.flatMap_singleton, ← List.append_nil (trace a)]
          exact run_bind hprobe (.refl _)
      | false =>
          rw [haccepted] at hprobe
          rw [if_neg Bool.false_ne_true, List.find?_cons_of_neg (by simp [haccepted]), List.flatMap_cons]
          exact run_bind hprobe hrest

end Interaction
