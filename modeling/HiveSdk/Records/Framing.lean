import Mathlib.Data.List.Basic

/-!
# Length-prefixed records

A sequence of strings stored one after another, each behind its length. The code of a length has a fixed width and is only asked to be right up to a bound, so the results about reading are for records that stay below it.
-/

namespace Framing

variable {α : Type}

/-- A code of fixed width for the lengths up to `bound`. -/
structure LengthCode (α : Type) where
  width : Nat
  bound : Nat
  encode : Nat → List α
  decode : List α → Nat
  length_encode : ∀ n, (encode n).length = width
  decode_encode : ∀ n ≤ bound, decode (encode n) = n

namespace LengthCode

variable (c : LengthCode α)

/-- One record: the length and the string. -/
def frame (v : List α) : List α := c.encode v.length ++ v

/-- The records of a sequence of strings, one after another. -/
def join (vs : List (List α)) : List α := vs.flatMap c.frame

@[simp] theorem length_frame (v : List α) : (c.frame v).length = c.width + v.length := by
  rw [frame, List.length_append, c.length_encode]

@[simp] theorem join_nil : c.join [] = [] := rfl

@[simp] theorem join_cons (v : List α) (vs : List (List α)) :
    c.join (v :: vs) = c.frame v ++ c.join vs := rfl

theorem join_append (vs ws : List (List α)) : c.join (vs ++ ws) = c.join vs ++ c.join ws :=
  List.flatMap_append

theorem join_singleton (v : List α) : c.join [v] = c.frame v := by
  rw [join_cons, join_nil, List.append_nil]

/-- Behind at least one nonempty string there are more bytes than a length takes. -/
theorem width_lt_length_join {vs : List (List α)} (hne : vs ≠ []) (hvs : ∀ v ∈ vs, v ≠ []) :
    c.width < (c.join vs).length := by
  obtain ⟨v, rest, rfl⟩ := List.exists_cons_of_ne_nil hne
  have hpos := List.length_pos_of_ne_nil (hvs v List.mem_cons_self)
  rw [join_cons, List.length_append, length_frame]
  omega

/-! ### Reading the first record -/

section
variable {v rest : List α}

theorem decode_take_frame (hv : v.length ≤ c.bound) :
    c.decode ((c.frame v ++ rest).take c.width) = v.length := by
  have hlength := c.length_encode v.length
  rw [frame, List.append_assoc, List.take_left' hlength]
  exact c.decode_encode v.length hv

theorem drop_width_frame : (c.frame v ++ rest).drop c.width = v ++ rest := by
  have hlength := c.length_encode v.length
  rw [frame, List.append_assoc, List.drop_left' hlength]

end

theorem frame_append_inj {u u' v w : List α} (hv : v.length ≤ c.bound) (hw : w.length ≤ c.bound)
    (h : c.frame v ++ u = c.frame w ++ u') : v = w ∧ u = u' := by
  have hlength : v.length = w.length := by
    rw [← c.decode_take_frame hv, h, c.decode_take_frame hw]
  have hdrop : v ++ u = w ++ u' := by
    rw [← c.drop_width_frame, h, c.drop_width_frame]
  exact List.append_inj hdrop hlength

/-! ### Walking over stored bytes -/

section
variable {max : Nat} {b u v : List α} {vs ws : List (List α)} {ok : Bool}

/-- A string that a writer accepts. -/
def Valid (max : Nat) (v : List α) : Prop := v ≠ [] ∧ v.length ≤ max

/-- One or more records of valid strings, and nothing else. -/
def WellFormed (max : Nat) (b : List α) : Prop :=
  ∃ vs, vs ≠ [] ∧ (∀ v ∈ vs, Valid max v) ∧ b = c.join vs

/-- The bytes begin with the records of these valid strings. -/
def Begins (max : Nat) (b : List α) (vs : List (List α)) : Prop :=
  (∀ v ∈ vs, Valid max v) ∧ ∃ u, b = c.join vs ++ u

/-- Behind some records of valid strings comes a record of no byte, with more behind it than a length takes. -/
def Hollow (max : Nat) (b : List α) : Prop :=
  ∃ vs u, (∀ v ∈ vs, Valid max v) ∧ b = c.join vs ++ (c.frame [] ++ u) ∧ c.width < u.length

/-- A walk that takes every record of up to `max` bytes, unless it leaves a rest that is too short for another one: the strings it has come across, and whether it has come to the end. -/
inductive Walk (max : Nat) : List α → List (List α) → Bool → Prop
  | last (v : List α) (hv : v.length ≤ max) : Walk max (c.frame v) [v] true
  | next (v : List α) {u : List α} {vs : List (List α)} {ok : Bool} (hv : v.length ≤ max)
      (hu : c.width < u.length) (h : Walk max u vs ok) : Walk max (c.frame v ++ u) (v :: vs) ok
  | bad (b : List α) (h : ∀ v u, v.length ≤ max → b = c.frame v ++ u →
      u ≠ [] ∧ u.length ≤ c.width) : Walk max b [] false

theorem Hollow.cons (hv : Valid max v) (h : c.Hollow max u) : c.Hollow max (c.frame v ++ u) := by
  obtain ⟨vs, u', hvs, rfl, hu'⟩ := h
  refine ⟨v :: vs, u', fun w hw => ?_, ?_, hu'⟩
  · rcases List.mem_cons.1 hw with rfl | hw
    · exact hv
    · exact hvs w hw
  · rw [join_cons, List.append_assoc]

theorem not_wellFormed_of_hollow (hmax : max ≤ c.bound) (h : c.Hollow max b) :
    ¬ c.WellFormed max b := by
  rintro ⟨ws, -, hws, hb⟩
  obtain ⟨vs, u, hvs, rfl, hu⟩ := h
  induction vs generalizing ws with
  | nil =>
      cases ws with
      | nil =>
          have hlength := congrArg List.length hb
          simp only [join_nil, List.nil_append, List.length_append, List.length_nil] at hlength
          omega
      | cons w ws =>
          obtain ⟨hne, hle⟩ := hws w List.mem_cons_self
          rw [join_nil, List.nil_append, join_cons] at hb
          exact hne (c.frame_append_inj (Nat.zero_le _) (Nat.le_trans hle hmax) hb).1.symm
  | cons v vs ih =>
      have hv := hvs v List.mem_cons_self
      rw [join_cons, List.append_assoc] at hb
      cases ws with
      | nil =>
          have hlength := congrArg List.length hb
          simp only [join_nil, List.length_append, List.length_nil] at hlength
          omega
      | cons w ws =>
          have hw := hws w List.mem_cons_self
          rw [join_cons] at hb
          have hrest := (c.frame_append_inj (Nat.le_trans hv.2 hmax) (Nat.le_trans hw.2 hmax) hb).2
          exact ih ws (fun w' hw' => hws w' (List.mem_cons_of_mem _ hw'))
            (fun v' hv' => hvs v' (List.mem_cons_of_mem _ hv')) hrest

/-- A walk over bytes that are not hollow comes to the end exactly when they are well formed, and what it has come across is valid. -/
theorem Walk.of_not_hollow (hmax : max ≤ c.bound) (h : c.Walk max b vs ok) (hb : c.width < b.length)
    (hhollow : ¬ c.Hollow max b) : (ok = true ↔ c.WellFormed max b) ∧ c.Begins max b vs := by
  induction h with
  | last v hv =>
      have hne : v ≠ [] := by
        rintro rfl
        rw [length_frame, List.length_nil] at hb
        omega
      have hvs : ∀ w ∈ [v], Valid max w := by
        intro w hw
        rw [List.mem_singleton.1 hw]
        exact ⟨hne, hv⟩
      refine ⟨iff_of_true rfl ⟨[v], List.cons_ne_nil _ _, hvs, (c.join_singleton v).symm⟩, hvs, [], ?_⟩
      rw [join_singleton, List.append_nil]
  | @next v u vs ok hv hu h ih =>
      have hvalid : Valid max v := by
        refine ⟨?_, hv⟩
        rintro rfl
        exact hhollow ⟨[], u, fun _ h => (nomatch h), rfl, hu⟩
      obtain ⟨hok, hvs, u', rfl⟩ := ih hu fun h => hhollow (h.cons c hvalid)
      have hall : ∀ w ∈ v :: vs, Valid max w := by
        intro w hw
        rcases List.mem_cons.1 hw with rfl | hw
        · exact hvalid
        · exact hvs w hw
      refine ⟨hok.trans ⟨?_, ?_⟩, hall, u', by rw [join_cons, List.append_assoc]⟩
      · rintro ⟨ws, -, hws, hjoin⟩
        refine ⟨v :: ws, List.cons_ne_nil _ _, fun w hw => ?_, by rw [hjoin, join_cons]⟩
        rcases List.mem_cons.1 hw with rfl | hw
        · exact hvalid
        · exact hws w hw
      · rintro ⟨ws, hne, hws, hjoin⟩
        obtain ⟨w, ws, rfl⟩ := List.exists_cons_of_ne_nil hne
        rw [join_cons] at hjoin
        have hw := hws w List.mem_cons_self
        have hrest := (c.frame_append_inj (Nat.le_trans hv hmax) (Nat.le_trans hw.2 hmax) hjoin).2
        refine ⟨ws, ?_, fun w' hw' => hws w' (List.mem_cons_of_mem _ hw'), hrest⟩
        rintro rfl
        rw [hrest] at hu
        exact absurd hu (Nat.not_lt_zero _)
  | bad b h =>
      refine ⟨iff_of_false Bool.false_ne_true ?_, fun _ h => (nomatch h), b, rfl⟩
      rintro ⟨ws, hne, hws, rfl⟩
      obtain ⟨w, ws, rfl⟩ := List.exists_cons_of_ne_nil hne
      obtain ⟨hrest, hshort⟩ := h w _ (hws w List.mem_cons_self).2 (c.join_cons w ws)
      have hws' : ws ≠ [] := by
        rintro rfl
        exact hrest rfl
      have hlong := c.width_lt_length_join hws' fun w' hw' => (hws w' (List.mem_cons_of_mem _ hw')).1
      omega

/-- A walk over hollow bytes comes across the empty record. -/
theorem Walk.mem_nil_of_hollow (hmax : max ≤ c.bound) (h : c.Walk max b ws ok)
    (hhollow : c.Hollow max b) : [] ∈ ws := by
  obtain ⟨vs, u, hvs, hb, hu⟩ := hhollow
  induction h generalizing vs with
  | last v hv =>
      rw [← List.append_nil (c.frame v)] at hb
      cases vs with
      | nil =>
          have hrest := (c.frame_append_inj (Nat.le_trans hv hmax) (Nat.zero_le _) hb).2
          rw [← hrest] at hu
          exact absurd hu (Nat.not_lt_zero _)
      | cons w vs =>
          rw [join_cons, List.append_assoc] at hb
          have hw := hvs w List.mem_cons_self
          have hrest := (c.frame_append_inj (Nat.le_trans hv hmax) (Nat.le_trans hw.2 hmax) hb).2
          have hlength := congrArg List.length hrest
          simp only [List.length_append, List.length_nil] at hlength
          omega
  | @next v u' vs' ok hv hu' h ih =>
      cases vs with
      | nil =>
          obtain rfl := (c.frame_append_inj (Nat.le_trans hv hmax) (Nat.zero_le _) hb).1
          exact List.mem_cons_self
      | cons w vs =>
          rw [join_cons, List.append_assoc] at hb
          have hw := hvs w List.mem_cons_self
          have hrest := (c.frame_append_inj (Nat.le_trans hv hmax) (Nat.le_trans hw.2 hmax) hb).2
          exact List.mem_cons_of_mem _ (ih vs (fun v' hv' => hvs v' (List.mem_cons_of_mem _ hv')) hrest)
  | bad b h =>
      cases vs with
      | nil => exact absurd (h [] u (Nat.zero_le _) hb).2 (by omega)
      | cons w vs =>
          rw [join_cons, List.append_assoc] at hb
          have hshort := (h w _ (hvs w List.mem_cons_self).2 hb).2
          simp only [List.length_append] at hshort
          omega

end

end LengthCode

end Framing
