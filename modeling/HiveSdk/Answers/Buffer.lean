import HiveSdk.Answers.Body
import HiveSdk.Interaction.Observe

/-!
# The life of a response buffer

A client keeps its buffer over many requests: pieces are delivered to it, a reset forgets them, and a move gives the block away. The history below takes these in any order, with any answers of the allocator, next to two things that the client does not know: how large its block really is, and what has been delivered.
-/

namespace HiveSdk

open Interaction

/-- The size of the block that the client has. -/
def allocator : World Event Event.Answer Nat where
  pre _ _ := True
  step
    | size, .realloc n, ok, size' => size' = if ok then n else size
    | size, _, _, size' => size' = size

/-- What can have become of a response buffer of a block of so many bytes. What has been delivered since the last reset or move is known as long as no delivery has failed since. -/
inductive BufferHistory (σ : Type) : ResponseBody → Nat → Option Bytes → Prop
  | new : BufferHistory σ .empty 0 (some [])
  | delivery {r r' : ResponseBody} {size size' taken : Nat} {delivered : Option Bytes} {chunk : Bytes}
      {p p' : Process σ} {tr : Trace} (hist : BufferHistory σ r size delivered)
      (hchunk : chunk.length < 2 ^ 64)
      (hrun : Run (httpResponseBodyWriteCallback r chunk p) tr ((r', taken), p'))
      (haccepts : allocator.Accepts size tr size') :
      BufferHistory σ r' size' (if taken = chunk.length then delivered.map (· ++ chunk) else none)
  | reset {r : ResponseBody} {size : Nat} {delivered : Option Bytes}
      (hist : BufferHistory σ r size delivered) : BufferHistory σ (httpClientReset r) size (some [])
  | move {r : ResponseBody} {size : Nat} {delivered : Option Bytes} {block : Option HeapBlock} {len : Bool} {p p' : Process σ}
      {tr : Trace} (hist : BufferHistory σ r size delivered)
      (hrun : Run (httpClientMoveResponseBody r len p) tr (block, p')) :
      BufferHistory σ (leftByMove r) (if block.isSome then 0 else size) (some [])

namespace ResponseBody

/-- The used bytes are inside the bytes that have been written, and these inside the block. -/
structure InBlock (r : ResponseBody) (size : Nat) : Prop where
  used_le_data : r.used ≤ r.data.length
  data_le_sz : r.data.length ≤ r.sz
  sz_eq : r.sz = size
  size_lt : size < 2 ^ 64

variable {r : ResponseBody} {size : Nat} {chunk : Bytes}

theorem InBlock.used_le_sz (h : r.InBlock size) : r.used ≤ r.sz := h.used_le_data.trans h.data_le_sz

theorem InBlock.empty : ResponseBody.empty.InBlock 0 :=
  ⟨Nat.le_refl 0, Nat.le_refl 0, rfl, by decide⟩

theorem InBlock.forget (h : r.InBlock size) : InBlock { r with used := 0 } size :=
  ⟨Nat.zero_le _, h.data_le_sz, h.sz_eq, h.size_lt⟩

theorem InBlock.append {sz : Nat} (h : r.InBlock size) (hsz : r.sz ≤ sz) (hroom : r.used + chunk.length ≤ sz)
    (hlt : sz < 2 ^ 64) : (r.append chunk sz).InBlock sz := by
  have hdata : (r.append chunk sz).data.length ≤ sz := by
    have hwritten := h.data_le_sz
    have htake := List.length_take_of_le h.used_le_data
    simp only [ResponseBody.append, List.length_append, List.length_drop, htake]
    omega
  exact ⟨(append_contents h.used_le_data (by omega)).2.2, hdata, rfl, hlt⟩

end ResponseBody

section
variable {σ : Type} {p : Process σ} {r : ResponseBody} {size : Nat} {chunk : Bytes}

/-- What one delivery does: a piece is taken and stands behind the others, inside the block, or it is not taken and the buffer is empty. -/
theorem wp_delivery (h : r.InBlock size) (hchunk : chunk.length < 2 ^ 64) :
    Proc.wp allocator.responsive (httpResponseBodyWriteCallback r chunk) (fun result p' size' =>
      p' = p ∧ result.1.InBlock size'
        ∧ ((result.2 = chunk.length ∧ r.used + chunk.length ≤ size'
            ∧ result.1.contents = r.contents ++ chunk)
          ∨ (result.2 ≠ chunk.length ∧ result.1.used = 0))) p size := by
  have hbounds := ResponseBody.roomFor_bounds h.used_le_sz (h.sz_eq.trans_lt h.size_lt) hchunk
  have hrefused : ∀ size', r.InBlock size' → 0 < chunk.length → ∀ p' : Process σ, p' = p →
      p' = p ∧ ResponseBody.InBlock { r with used := 0 } size'
        ∧ (((0 : Nat) = chunk.length ∧ r.used + chunk.length ≤ size'
            ∧ ResponseBody.contents { r with used := 0 } = r.contents ++ chunk)
          ∨ ((0 : Nat) ≠ chunk.length ∧ (0 : Nat) = 0)) := by
    intro size' h' hpos p' hp
    exact ⟨hp, h'.forget, .inr ⟨hpos.ne, rfl⟩⟩
  have htaken : ∀ sz, r.sz ≤ sz → r.used + chunk.length ≤ sz → sz < 2 ^ 64 →
      (r.append chunk sz).InBlock sz ∧ (r.append chunk sz).contents = r.contents ++ chunk := by
    intro sz hsz hroom hlt
    exact ⟨h.append hsz hroom hlt, (ResponseBody.append_contents h.used_le_data (by omega)).2.1⟩
  rw [httpResponseBodyWriteCallback]
  by_cases hgrow : cSize (r.sz - r.used) < chunk.length
  · have hpos : 0 < chunk.length := by omega
    rw [if_pos hgrow]
    by_cases hwrap : cSize (r.sz + chunk.length) < r.sz
    · rw [if_pos hwrap]
      exact hrefused size h hpos p rfl
    obtain ⟨hroom, hsz, hlt⟩ := hbounds fun hboth => hwrap hboth.2
    have hnewSize : r.roomFor chunk = r.newSize chunk.length := if_pos hgrow
    rw [hnewSize] at hroom hsz hlt
    rw [if_neg hwrap, Proc.wp_bind, Proc.wp_call]
    refine ⟨⟨trivial, true, _, rfl⟩, fun ok size' hsize => ?_⟩
    cases ok with
    | false =>
        obtain rfl : size' = size := hsize
        exact hrefused size' h hpos p rfl
    | true =>
        obtain rfl : size' = r.newSize chunk.length := hsize
        obtain ⟨hblock, hcontents⟩ := htaken _ hsz hroom hlt
        exact ⟨rfl, hblock, .inl ⟨rfl, hroom, hcontents⟩⟩
  · obtain ⟨hroom, hsz, hlt⟩ := hbounds fun hboth => hgrow hboth.1
    have hkept : r.roomFor chunk = r.sz := if_neg hgrow
    rw [hkept] at hroom hsz hlt
    obtain ⟨hblock, hcontents⟩ := htaken _ hsz hroom hlt
    rw [if_neg hgrow]
    refine ⟨rfl, h.sz_eq ▸ hblock, .inl ⟨rfl, h.sz_eq ▸ hroom, hcontents⟩⟩

/-- A move gives away what has been delivered, or finds nothing. -/
theorem move_runs {len : Bool} {block : Option HeapBlock} {p' : Process σ} {tr : Trace}
    (hrun : Run (httpClientMoveResponseBody r len p) tr (block, p')) :
    (r.used = 0 ∧ block = none) ∨ (r.used ≠ 0 ∧ block = some r.block) := by
  by_cases hused : r.used = 0
  · rw [httpClientMoveResponseBody, if_pos hused] at hrun
    cases len with
    | true =>
        cases hrun
        exact .inl ⟨hused, rfl⟩
    | false =>
        obtain ⟨never, -⟩ := run_ask_iff.1 hrun
        exact never.elim
  · rw [httpClientMoveResponseBody, if_neg hused] at hrun
    cases hrun
    exact .inr ⟨hused, rfl⟩

/-- The invariant, by the order of what has happened. -/
theorem BufferHistory.inBlock {delivered : Option Bytes} (hist : BufferHistory σ r size delivered) :
    r.InBlock size ∧ ∀ bytes, delivered = some bytes → r.contents = bytes := by
  induction hist with
  | new =>
      refine ⟨.empty, fun bytes hbytes => ?_⟩
      cases hbytes
      rfl
  | delivery hist hchunk hrun haccepts ih =>
      obtain ⟨hblock, hcontents⟩ := ih
      obtain ⟨-, hblock', htaken | hrefused⟩ := Prog.wp_run (wp_delivery hblock hchunk) hrun (World.accepts_responsive_iff.2 haccepts)
      · refine ⟨hblock', fun bytes hbytes => ?_⟩
        rw [if_pos htaken.1] at hbytes
        obtain ⟨before, hbefore, rfl⟩ := Option.map_eq_some_iff.1 hbytes
        rw [← hcontents before hbefore]
        exact htaken.2.2
      · refine ⟨hblock', fun bytes hbytes => ?_⟩
        rw [if_neg hrefused.1] at hbytes
        cases hbytes
  | reset hist ih =>
      refine ⟨ih.1.forget, fun bytes hbytes => ?_⟩
      cases hbytes
      rfl
  | @move r size delivered block len p p' tr hist hrun ih =>
      obtain ⟨hused, rfl⟩ | ⟨hused, rfl⟩ := move_runs hrun
      · rw [leftByMove, if_pos hused]
        refine ⟨ih.1, fun bytes hbytes => ?_⟩
        cases hbytes
        rw [ResponseBody.contents, hused, List.take_zero]
      · rw [leftByMove, if_neg hused]
        refine ⟨.empty, fun bytes hbytes => ?_⟩
        cases hbytes
        rfl

end

/-- At every point of a history: the used bytes lie in the block, whose size the client knows, and nothing has been written behind it; as long as no delivery has failed, the used bytes are what has been delivered; the growth loop has a result, with room for the next piece; and the next delivery returns and writes inside the block. -/
theorem response_buffer_invariant {σ : Type} {r : ResponseBody} {size : Nat} {delivered : Option Bytes}
    (hist : BufferHistory σ r size delivered) :
    (r.used ≤ r.sz ∧ r.sz = size ∧ r.data.length ≤ size)
      ∧ (∀ bytes, delivered = some bytes → r.contents = bytes ∧ bytes.length = r.used)
      ∧ (∀ length < 2 ^ 64, cSize (r.sz - r.used) < length → ¬ cSize (r.sz + length) < r.sz →
          r.used + length ≤ r.newSize length ∧ r.newSize length < 2 ^ 64)
      ∧ ∀ (chunk : Bytes) (p : Process σ), chunk.length < 2 ^ 64 →
          (∃ tr result p' size', Run (httpResponseBodyWriteCallback r chunk p) tr (result, p')
            ∧ allocator.Accepts size tr size')
          ∧ ∀ tr r' taken p' size', Run (httpResponseBodyWriteCallback r chunk p) tr ((r', taken), p') →
            allocator.Accepts size tr size' → taken = chunk.length → r.used + chunk.length ≤ size' := by
  obtain ⟨hblock, hcontents⟩ := hist.inBlock
  have hused := hblock.used_le_sz
  refine ⟨⟨hused, hblock.sz_eq, hblock.sz_eq ▸ hblock.data_le_sz⟩, ?_, ?_, ?_⟩
  · intro bytes hbytes
    have hsame := hcontents bytes hbytes
    refine ⟨hsame, ?_⟩
    rw [← hsame]
    exact List.length_take_of_le hblock.used_le_data
  · intro length hlength hgrow hwrap
    obtain ⟨hlow, hlt⟩ := ResponseBody.newSize_fits (hblock.sz_eq.trans_lt hblock.size_lt) hlength hwrap
    exact ⟨by omega, hlt⟩
  · intro chunk p hchunk
    have hdelivery := wp_delivery (p := p) hblock hchunk
    constructor
    · obtain ⟨tr, x, size', hrun, haccepts, -⟩ := Prog.exists_run_of_wp hdelivery
      exact ⟨tr, x.1, x.2, size', hrun, haccepts⟩
    · intro tr r' taken p' size' hrun haccepts htaken
      obtain ⟨-, -, hfits | hrefused⟩ := Prog.wp_run hdelivery hrun (World.accepts_responsive_iff.2 haccepts)
      · exact hfits.2.1
      · exact absurd htaken hrefused.1

/-! A first piece, for which a block has to be allocated, and a second one, for which it has room. The block is then used for another piece, and given away. -/

def firstPiece : ResponseBody := ResponseBody.empty.append (bytes "ab") (ResponseBody.empty.newSize 2)

def secondPiece : ResponseBody := firstPiece.append (bytes "cd") firstPiece.sz

def otherPiece : ResponseBody := (httpClientReset secondPiece).append (bytes "e") firstPiece.sz

private theorem firstPiece_history :
    BufferHistory Unit firstPiece (ResponseBody.empty.newSize 2) (some (bytes "ab")) := by
  have hrun : Run (httpResponseBodyWriteCallback .empty (bytes "ab") (⟨0, 0, ()⟩ : Process Unit))
      [⟨.realloc (ResponseBody.empty.newSize 2), true⟩] ((firstPiece, 2), ⟨0, 0, ()⟩) := .ask _ _ _ (.refl _)
  exact .delivery .new (by decide) hrun (.cons rfl (.nil _))

unseal growSize in
private theorem secondPiece_history :
    BufferHistory Unit secondPiece (ResponseBody.empty.newSize 2) (some (bytes "abcd")) := by
  have hrun : Run (httpResponseBodyWriteCallback firstPiece (bytes "cd") (⟨0, 0, ()⟩ : Process Unit)) []
      ((secondPiece, 2), ⟨0, 0, ()⟩) := .refl _
  exact .delivery firstPiece_history (by decide) hrun (.nil _)

unseal growSize in
private theorem otherPiece_history :
    BufferHistory Unit otherPiece (ResponseBody.empty.newSize 2) (some (bytes "e")) := by
  have hrun : Run (httpResponseBodyWriteCallback (httpClientReset secondPiece) (bytes "e") (⟨0, 0, ()⟩ : Process Unit)) []
      ((otherPiece, 1), ⟨0, 0, ()⟩) := .refl _
  exact .delivery (.reset secondPiece_history) (by decide) hrun (.nil _)

unseal growSize in
private theorem moved_history : BufferHistory Unit (leftByMove otherPiece) 0 (some []) := by
  have hrun : Run (httpClientMoveResponseBody otherPiece false (⟨0, 0, ()⟩ : Process Unit)) []
      (some otherPiece.block, ⟨0, 0, ()⟩) := .refl _
  exact .move otherPiece_history hrun

theorem pieces_invariant : secondPiece.contents = bytes "abcd" ∧ otherPiece.contents = bytes "e"
    ∧ otherPiece.used ≤ otherPiece.sz ∧ (leftByMove otherPiece).sz = 0 := by
  have hsecond := response_buffer_invariant secondPiece_history
  have hother := response_buffer_invariant otherPiece_history
  have hmoved := response_buffer_invariant moved_history
  exact ⟨(hsecond.2.1 _ rfl).1, (hother.2.1 _ rfl).1, hother.1.1, hmoved.1.2.1⟩

end HiveSdk
