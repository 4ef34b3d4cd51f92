import HiveSdk.Model.HttpClient

/-!
# The body that has been received

Where no allocation fails, the pieces of an answer determine the buffer that the write callback leaves behind: how many bytes of it are used, which they are, and how large the allocation is. Nothing is assumed of the sizes but that each piece is counted by a `size_t`.
-/

namespace HiveSdk

open Interaction

namespace ResponseBody

/-- The used bytes have been written, and lie inside an allocation of a size that there is. -/
structure Tidy (r : ResponseBody) : Prop where
  used_le_sz : r.used ≤ r.sz
  sz_lt : r.sz < 2 ^ 64
  data_length : r.data.length = r.used

theorem Tidy.empty : ResponseBody.empty.Tidy := ⟨Nat.le_refl 0, by decide, rfl⟩

/-- The pieces that the write callback can be handed. -/
def Pieces (chunks : List Bytes) : Prop := ∀ chunk ∈ chunks, chunk.length < 2 ^ 64

section
variable {r : ResponseBody} {chunk : Bytes} {chunks : List Bytes}

private theorem growSize_lt {target newSz lastTry : Nat} (htarget : target < 2 ^ 64) (hnewSz : newSz < 2 ^ 64) :
    growSize target newSz lastTry < 2 ^ 64 := by
  fun_induction growSize target newSz lastTry with
  | case1 newSz lastTry hstep ih =>
      apply ih
      unfold cSize
      omega
  | case2 newSz lastTry hstop hwrapped => exact htarget
  | case3 newSz lastTry hstop hfits => exact hnewSz

/-- The new size has room behind the whole old block, also when doubling wraps around. -/
theorem newSize_fits {length : Nat} (hsz : r.sz < 2 ^ 64) (hlength : length < 2 ^ 64)
    (hwrap : ¬ cSize (r.sz + length) < r.sz) :
    r.sz + length ≤ r.newSize length ∧ r.newSize length < 2 ^ 64 := by
  have htarget : cSize (r.sz + length) = r.sz + length := by
    unfold cSize at hwrap ⊢
    omega
  have hnewSz : (if r.sz = 0 then 512 else cSize (2 * r.sz)) < 2 ^ 64 := by
    unfold cSize
    split <;> omega
  have hlt : r.sz + length < 2 ^ 64 := by
    rw [← htarget]
    unfold cSize
    omega
  rw [newSize, htarget]
  exact ⟨le_growSize _ _ _, growSize_lt hlt hnewSz⟩

/-- Either there is room for the piece, or the sum of the sizes does not wrap around. -/
theorem roomFor_bounds (hused : r.used ≤ r.sz) (hsz : r.sz < 2 ^ 64) (hchunk : chunk.length < 2 ^ 64)
    (hfits : ¬ (cSize (r.sz - r.used) < chunk.length ∧ cSize (r.sz + chunk.length) < r.sz)) :
    r.used + chunk.length ≤ r.roomFor chunk ∧ r.sz ≤ r.roomFor chunk ∧ r.roomFor chunk < 2 ^ 64 := by
  have hroom : cSize (r.sz - r.used) = r.sz - r.used := by
    unfold cSize
    omega
  rw [ResponseBody.roomFor]
  split
  case isTrue hgrow =>
      obtain ⟨hlow, hlt⟩ := newSize_fits hsz hchunk fun hwrap => hfits ⟨hgrow, hwrap⟩
      exact ⟨by omega, by omega, hlt⟩
  case isFalse hgrow =>
      rw [hroom] at hgrow
      exact ⟨by omega, Nat.le_refl _, hsz⟩

theorem Tidy.roomFor (hr : r.Tidy) (hfits : ¬ (cSize (r.sz - r.used) < chunk.length ∧ cSize (r.sz + chunk.length) < r.sz))
    (hchunk : chunk.length < 2 ^ 64) :
    r.used + chunk.length ≤ r.roomFor chunk ∧ r.roomFor chunk < 2 ^ 64 := by
  have hbounds := roomFor_bounds hr.used_le_sz hr.sz_lt hchunk hfits
  exact ⟨hbounds.1, hbounds.2.2⟩

theorem Tidy.append (hr : r.Tidy) {sz : Nat} (hsz : r.used + chunk.length ≤ sz ∧ sz < 2 ^ 64) :
    (r.append chunk sz).Tidy ∧ (r.append chunk sz).used = r.used + chunk.length
      ∧ (r.append chunk sz).contents = r.contents ++ chunk := by
  have hused : cSize (r.used + chunk.length) = r.used + chunk.length := by
    unfold cSize
    omega
  have htake : (r.data.take r.used).length = r.used := List.length_take_of_le hr.data_length.ge
  have hdrop : r.data.drop (r.used + chunk.length) = [] := by
    apply List.drop_eq_nil_of_le
    have hdata := hr.data_length
    omega
  have hdata : (r.append chunk sz).data = r.data.take r.used ++ chunk := by
    simp only [ResponseBody.append, hdrop, List.append_nil]
  have hlength : (r.append chunk sz).data.length = r.used + chunk.length := by
    rw [hdata, List.length_append, htake]
  refine ⟨⟨?_, hsz.2, ?_⟩, hused, ?_⟩
  · show cSize (r.used + chunk.length) ≤ sz
    omega
  · rw [hlength]
    exact hused.symm
  · show (r.append chunk sz).data.take (cSize (r.used + chunk.length)) = _
    rw [hused, ← hlength, List.take_length, hdata]
    rfl

end

end ResponseBody

section
variable {σ τ : Type} {W : World Event Event.Answer τ} {p : Process σ} {s : τ}

/-- Unless an allocation fails or a size wraps around, which ends the transfer, every piece is taken. -/
theorem wp_deliver_after {chunks : List Bytes} {Q : ResponseBody × Bool → Process σ → τ → Prop} {I : τ → Prop}
    (hpre : chunks.flatten ≠ [] → ∀ t n, I t → W.pre t (.realloc n))
    (hstep : ∀ t n ok u, I t → W.step t (.realloc n) ok u → I u) (hs : I s) {r : ResponseBody} (hr : r.Tidy)
    (hchunks : ResponseBody.Pieces chunks)
    (hok : ∀ t, I t → (r.after chunks).Tidy → (r.after chunks).used = r.used + chunks.flatten.length →
      (r.after chunks).contents = r.contents ++ chunks.flatten → Q (r.after chunks, true) p t)
    (hfail : chunks.flatten ≠ [] → ∀ r' t, I t → Q (r', false) p t) : Proc.wp W (deliver r chunks) Q p s := by
  induction chunks generalizing r s with
  | nil => exact hok s hs hr rfl (List.append_nil _).symm
  | cons chunk chunks ih =>
      have hchunk := hchunks chunk List.mem_cons_self
      have hbehind : chunks.flatten ≠ [] → (chunk :: chunks).flatten ≠ [] :=
        fun hne hnil => hne (List.append_eq_nil_iff.1 hnil).2
      have hfirst : chunk ≠ [] → (chunk :: chunks).flatten ≠ [] :=
        fun hne hnil => hne (List.append_eq_nil_iff.1 hnil).1
      have htaken : ∀ t, I t → (r.used + chunk.length ≤ r.roomFor chunk ∧ r.roomFor chunk < 2 ^ 64) →
          Proc.wp W (deliver (r.append chunk (r.roomFor chunk)) chunks) Q p t := by
        intro t ht hroom
        obtain ⟨htidy, hused, hcontents⟩ := hr.append hroom
        apply ih (fun hne => hpre (hbehind hne)) ht htidy (fun c hc => hchunks c (List.mem_cons_of_mem chunk hc))
        · intro u hu htidy' hused' hcontents'
          apply hok u hu htidy'
          · rw [ResponseBody.after, hused', hused, List.flatten_cons, List.length_append, Nat.add_assoc]
          · rw [ResponseBody.after, hcontents', hcontents, List.flatten_cons, List.append_assoc]
        · exact fun hne => hfail (hbehind hne)
      have hrefused : ∀ r' t, I t → chunk ≠ [] → Proc.wp W (if 0 = chunk.length then deliver r' chunks
          else pure (r', false)) Q p t := by
        intro r' t ht hne
        rw [if_neg (fun hzero => hne (List.length_eq_zero_iff.1 hzero.symm)), Proc.wp_pure]
        exact hfail (hfirst hne) r' t ht
      rw [deliver, Proc.wp_bind, httpResponseBodyWriteCallback]
      by_cases hgrow : cSize (r.sz - r.used) < chunk.length
      · have hne : chunk ≠ [] := by
          rintro rfl
          exact absurd hgrow (Nat.not_lt_zero _)
        rw [if_pos hgrow]
        by_cases hwrap : cSize (r.sz + chunk.length) < r.sz
        · rw [if_pos hwrap, Proc.wp_pure]
          exact hrefused _ s hs hne
        have hroom := hr.roomFor (fun h => hwrap h.2) hchunk
        have hnewSize : r.roomFor chunk = r.newSize chunk.length := if_pos hgrow
        rw [if_neg hwrap, Proc.wp_bind, Proc.wp_call]
        refine ⟨hpre (hfirst hne) s _ hs, fun ok t ht => ?_⟩
        have hI := hstep s _ ok t hs ht
        cases ok with
        | false =>
            rw [if_neg Bool.false_ne_true, Proc.wp_pure]
            exact hrefused _ t hI hne
        | true =>
            rw [if_pos rfl, Proc.wp_pure]
            dsimp only
            rw [if_pos rfl, ← hnewSize]
            exact htaken t hI hroom
      · have hroom := hr.roomFor (fun h => hgrow h.1) hchunk
        have hsz : r.roomFor chunk = r.sz := if_neg hgrow
        rw [if_neg hgrow, Proc.wp_pure]
        dsimp only
        rw [if_pos rfl, ← hsz]
        exact htaken s hs hroom

end

end HiveSdk
