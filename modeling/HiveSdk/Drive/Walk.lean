import HiveSdk.Interaction.World
import HiveSdk.Model.OneDrive

/-!
# The record walk in memory

`get_values` walks over a buffer of bytes that somebody else may have written: it turns the length of each record around in place, checks it, and hands the bytes behind it to the callback. Here the loop is modelled on the memory, with a list of what it touches in the order it touches it. The invariant is that everything touched lies before the cursor and that nothing behind the cursor has changed.
-/

namespace HiveSdk

open Interaction OneDrive

/-! ### The loop -/

/-- The part of the buffer that is read and rewritten, or handed to the callback. -/
inductive Touch
  | header (kv : Nat)
  | value (start length : Nat)
  deriving DecidableEq, Repr

namespace Touch

def start : Touch → Nat
  | header kv => kv
  | value start _ => start

def stop : Touch → Nat
  | header kv => kv + kvEntrySize
  | value start length => start + length

end Touch

/-- `kv->val_len = ntohl(kv->val_len)` on a machine that stores the low byte first. -/
def swapHeader (buf : Bytes) (kv : Nat) : Option (Nat × Bytes) :=
  match buf.drop kv with
  | b₀ :: b₁ :: b₂ :: b₃ :: rest => some (ntohl b₀ b₁ b₂ b₃, buf.take kv ++ b₃ :: b₂ :: b₁ :: b₀ :: rest)
  | _ => none

theorem swapHeader_some {buf buf' : Bytes} {kv valLen : Nat} (h : swapHeader buf kv = some (valLen, buf')) :
    ∃ b₀ b₁ b₂ b₃ rest, buf.drop kv = b₀ :: b₁ :: b₂ :: b₃ :: rest ∧ valLen = ntohl b₀ b₁ b₂ b₃
      ∧ buf' = buf.take kv ++ b₃ :: b₂ :: b₁ :: b₀ :: rest := by
  rw [swapHeader] at h
  split at h
  case h_1 b₀ b₁ b₂ b₃ rest hdrop =>
    cases h
    exact ⟨b₀, b₁, b₂, b₃, rest, hdrop, rfl, rfl⟩
  case h_2 => cases h

theorem swapHeader_length {buf buf' : Bytes} {kv valLen : Nat}
    (h : swapHeader buf kv = some (valLen, buf')) :
    buf'.length = buf.length ∧ kv + kvEntrySize ≤ buf.length := by
  obtain ⟨b₀, b₁, b₂, b₃, rest, hdrop, -, rfl⟩ := swapHeader_some h
  have hlength := congrArg List.length hdrop
  rw [List.length_drop] at hlength
  simp only [List.length_append, List.length_take, List.length_cons, kvEntrySize] at hlength ⊢
  omega

/-- The loop of `get_values` from the record at `kv`. -/
def walkBuffer (key buf : Bytes) (kv : Nat) (dataLen : Int) (touches : List Touch) :
    Hive OneDriveConnect (Int × Bytes × List Touch) :=
  match h : swapHeader buf kv with
  | none => undefinedBehaviour
  | some (valLen, buf') => do
      let touches := touches ++ [.header kv]
      let bad : Int := cInt (hiveGeneralError HiveErr.badPersistentData)
      if valLen > hiveMaxValueLen then return (bad, buf', touches)
      let dataLen := cSsize (dataLen - (kvEntrySize + valLen))
      if dataLen < 0 ∨ (dataLen > 0 ∧ dataLen ≤ kvEntrySize) then return (bad, buf', touches)
      if buf'.length < kv + kvEntrySize + valLen then undefinedBehaviour
      else
        let proceed ← call (Event.valuesCallback key ((buf'.drop (kv + kvEntrySize)).take valLen))
        let touches := touches ++ [.value (kv + kvEntrySize) valLen]
        if dataLen = 0 ∨ !proceed then return (0, buf', touches)
        walkBuffer key buf' (kv + kvEntrySize + valLen) dataLen touches
termination_by buf.length - kv
decreasing_by
  have hlength := swapHeader_length h
  simp only [kvEntrySize] at hlength ⊢
  omega

/-! ### The same loop without the memory -/

theorem undefinedBehaviour_bind {α β σ : Type} (f : α → Hive σ β) :
    (undefinedBehaviour >>= f) = (undefinedBehaviour : Hive σ β) := by
  funext p
  show Prog.ask _ _ = Prog.ask _ _
  congr 1
  funext never
  exact never.elim

/-- The bytes behind the cursor are all that the loop depends on. -/
theorem walkBuffer_result (key buf : Bytes) (kv : Nat) (dataLen : Int) (touches : List Touch) :
    (do return (← walkBuffer key buf kv dataLen touches).1) = walkValues key (buf.drop kv) dataLen := by
  induction hn : buf.length - kv using Nat.strong_induction_on generalizing buf kv dataLen touches with
  | _ n ih =>
      rw [walkBuffer]
      split
      case h_1 hswap =>
          have hdrop : ¬ ∃ b₀ b₁ b₂ b₃ rest, buf.drop kv = b₀ :: b₁ :: b₂ :: b₃ :: rest := by
            intro ⟨b₀, b₁, b₂, b₃, rest, hdrop⟩
            simp only [swapHeader, hdrop] at hswap
            cases hswap
          rw [walkValues, undefinedBehaviour_bind]
          intro b₀ b₁ b₂ b₃ rest hrest
          exact hdrop ⟨b₀, b₁, b₂, b₃, rest, hrest⟩
      case h_2 valLen buf' hswap =>
          obtain ⟨hlength, hinside⟩ := swapHeader_length hswap
          obtain ⟨b₀, b₁, b₂, b₃, rest, hdrop, rfl, hbuf'⟩ := swapHeader_some hswap
          have hbehind : buf'.drop (kv + kvEntrySize) = rest := by
            have hkv : (buf.take kv).length = kv := by
              rw [List.length_take]
              omega
            rw [hbuf', ← List.drop_drop, List.drop_left' hkv]
            rfl
          have hrest : buf'.length = kv + kvEntrySize + rest.length := by
            rw [← hbehind, List.length_drop]
            omega
          rw [hdrop, walkValues]
          generalize ntohl b₀ b₁ b₂ b₃ = valLen at hrest ⊢
          have hlt : buf'.length - (kv + kvEntrySize + valLen) < n := by
            simp only [kvEntrySize] at hinside ⊢
            omega
          by_cases hlong : valLen > hiveMaxValueLen
          · simp only [if_pos hlong]
            rfl
          simp only [if_neg hlong]
          by_cases hbad : cSsize (dataLen - (kvEntrySize + valLen)) < 0 ∨
              (cSsize (dataLen - (kvEntrySize + valLen)) > 0
                ∧ cSsize (dataLen - (kvEntrySize + valLen)) ≤ kvEntrySize)
          · simp only [if_pos hbad]
            rfl
          simp only [if_neg hbad]
          by_cases hcut : rest.length < valLen
          · have hcut' : buf'.length < kv + kvEntrySize + valLen := by omega
            simp only [if_pos hcut, if_pos hcut', undefinedBehaviour_bind]
          have hcut' : ¬ buf'.length < kv + kvEntrySize + valLen := by omega
          simp only [if_neg hcut, if_neg hcut', bind_assoc]
          rw [hbehind]
          apply bind_congr
          intro proceed
          by_cases hstop : cSsize (dataLen - (kvEntrySize + valLen)) = 0 ∨ (!proceed) = true
          · simp only [if_pos hstop]
            rfl
          simp only [if_neg hstop]
          have hnext := ih _ hlt buf' (kv + kvEntrySize + valLen) (cSsize (dataLen - (kvEntrySize + valLen)))
            (touches ++ [.header kv] ++ [.value (kv + kvEntrySize) valLen]) rfl
          rw [← List.drop_drop, hbehind] at hnext
          exact hnext

/-! ### What turning a header around changes -/

section
variable {buf buf' : Bytes} {kv valLen : Nat}

private theorem swapHeader_take (h : swapHeader buf kv = some (valLen, buf')) :
    buf'.take kv = buf.take kv := by
  have hinside := (swapHeader_length h).2
  obtain ⟨b₀, b₁, b₂, b₃, rest, -, -, rfl⟩ := swapHeader_some h
  have hkv : (buf.take kv).length = kv := by
    rw [List.length_take]
    omega
  exact List.take_left' hkv

private theorem swapHeader_drop (h : swapHeader buf kv = some (valLen, buf')) :
    (buf'.drop kv).take kvEntrySize = ((buf.drop kv).take kvEntrySize).reverse
      ∧ buf'.drop (kv + kvEntrySize) = buf.drop (kv + kvEntrySize) := by
  have hinside := (swapHeader_length h).2
  obtain ⟨b₀, b₁, b₂, b₃, rest, hdrop, -, rfl⟩ := swapHeader_some h
  have hkv : (buf.take kv).length = kv := by
    rw [List.length_take]
    omega
  have hturned : (buf.take kv ++ b₃ :: b₂ :: b₁ :: b₀ :: rest).drop kv = b₃ :: b₂ :: b₁ :: b₀ :: rest :=
    List.drop_left' hkv
  constructor
  · rw [hturned, hdrop]
    rfl
  · rw [← List.drop_drop, ← List.drop_drop, hturned, hdrop]
    rfl

private theorem swapHeader_getElem? (h : swapHeader buf kv = some (valLen, buf')) {i : Nat}
    (hi : i < kv ∨ kv + kvEntrySize ≤ i) : buf'[i]? = buf[i]? := by
  rcases hi with hi | hi
  · have hbefore := congrArg (·[i]?) (swapHeader_take h)
    simpa only [List.getElem?_take, if_pos hi] using hbefore
  · have hbehind := congrArg (·[i - (kv + kvEntrySize)]?) (swapHeader_drop h).2
    simpa only [List.getElem?_drop, Nat.add_sub_cancel' hi] using hbehind

end

/-! ### The invariant -/

/-- What the callback is handed, read off the bytes as they were downloaded. -/
def Touch.slice (buf : Bytes) : Touch → Option Bytes
  | .header _ => none
  | .value start length => some ((buf.drop start).take length)

/-- A walk over `buf` that has come to the byte `kv`, and has handed over `given`. -/
structure Walked (buf : Bytes) (kv : Nat) (buf' : Bytes) (touches : List Touch) (given : List Bytes) :
    Prop where
  length : buf'.length = buf.length
  inside : kv ≤ buf.length
  before : ∀ t ∈ touches, t.stop ≤ kv
  ordered : touches.Pairwise fun t t' => t.stop ≤ t'.start
  swapped : ∀ header, .header header ∈ touches →
    (buf'.drop header).take kvEntrySize = ((buf.drop header).take kvEntrySize).reverse
  kept : ∀ i, (∀ header, .header header ∈ touches → i < header ∨ header + kvEntrySize ≤ i) →
    buf'[i]? = buf[i]?
  behind : buf'.drop kv = buf.drop kv
  framed : ∀ start length, .value start length ∈ touches →
    ∃ header, .header header ∈ touches ∧ start = header + kvEntrySize
  given : given = touches.filterMap (Touch.slice buf)

namespace Walked

variable {buf buf' buf'' : Bytes} {kv valLen : Nat} {touches : List Touch} {given : List Bytes}

theorem start (buf : Bytes) : Walked buf 0 buf [] [] where
  length := rfl
  inside := Nat.zero_le _
  before := nofun
  ordered := .nil
  swapped := nofun
  kept _ _ := rfl
  behind := rfl
  framed := nofun
  given := rfl

private theorem ordered_append {t : Touch} (h : Walked buf kv buf' touches given) (hkv : kv ≤ t.start) :
    (touches ++ [t]).Pairwise fun t t' => t.stop ≤ t'.start := by
  rw [List.pairwise_append]
  refine ⟨h.ordered, List.pairwise_singleton _ _, fun t' ht' u hu => ?_⟩
  rw [List.mem_singleton.1 hu]
  exact (h.before t' ht').trans hkv

private theorem before_append {t : Touch} (h : Walked buf kv buf' touches given) {next : Nat}
    (hkv : kv ≤ next) (ht : t.stop ≤ next) : ∀ t' ∈ touches ++ [t], t'.stop ≤ next := by
  intro t' ht'
  rcases List.mem_append.1 ht' with hold | hnew
  · exact (h.before t' hold).trans hkv
  · rw [List.mem_singleton.1 hnew]
    exact ht

/-- The cursor is the header that is turned around next. -/
theorem header (h : Walked buf kv buf' touches given) (hswap : swapHeader buf' kv = some (valLen, buf'')) :
    Walked buf (kv + kvEntrySize) buf'' (touches ++ [.header kv]) given where
  length := (swapHeader_length hswap).1.trans h.length
  inside := h.length ▸ (swapHeader_length hswap).2
  before := h.before_append (Nat.le_add_right kv _) (Nat.le_refl _)
  ordered := h.ordered_append (Nat.le_refl kv)
  swapped header hheader := by
    rcases List.mem_append.1 hheader with hold | hnew
    · have hstop : header + kvEntrySize ≤ kv := h.before _ hold
      have htake := congrArg (fun b => (b.drop header).take kvEntrySize) (swapHeader_take hswap)
      simp only [List.drop_take, List.take_take] at htake
      rw [Nat.min_eq_left (by omega)] at htake
      rw [htake, h.swapped header hold]
    · cases List.mem_singleton.1 hnew
      rw [(swapHeader_drop hswap).1, h.behind]
  kept i hi := by
    rw [swapHeader_getElem? hswap (hi kv (by simp))]
    apply h.kept i
    intro header hheader
    exact hi header (List.mem_append_left _ hheader)
  behind := by
    rw [(swapHeader_drop hswap).2, ← List.drop_drop, h.behind, List.drop_drop]
  framed start length hvalue := by
    have hold : .value start length ∈ touches := by simpa using hvalue
    obtain ⟨header, hheader, hstart⟩ := h.framed start length hold
    exact ⟨header, List.mem_append_left _ hheader, hstart⟩
  given := by
    rw [h.given, List.filterMap_append]
    exact (List.append_nil _).symm

/-- What lies behind the header is handed over as it was downloaded. -/
theorem value (h : Walked buf kv buf' touches given) (hvalLen : kv + valLen ≤ buf.length)
    (hkv : ∃ header, .header header ∈ touches ∧ kv = header + kvEntrySize) :
    Walked buf (kv + valLen) buf' (touches ++ [.value kv valLen])
      (given ++ [(buf'.drop kv).take valLen]) where
  length := h.length
  inside := hvalLen
  before := h.before_append (Nat.le_add_right kv _) (Nat.le_refl _)
  ordered := h.ordered_append (Nat.le_refl kv)
  swapped header hheader := by
    rcases List.mem_append.1 hheader with hold | hnew
    · exact h.swapped header hold
    · cases List.mem_singleton.1 hnew
  kept i hi := by
    apply h.kept i
    intro header hheader
    exact hi header (List.mem_append_left _ hheader)
  behind := by
    rw [← List.drop_drop, h.behind, List.drop_drop]
  framed start length hvalue := by
    rcases List.mem_append.1 hvalue with hold | hnew
    · obtain ⟨header, hheader, hstart⟩ := h.framed start length hold
      exact ⟨header, List.mem_append_left _ hheader, hstart⟩
    · cases List.mem_singleton.1 hnew
      obtain ⟨header, hheader, hstart⟩ := hkv
      exact ⟨header, List.mem_append_left _ hheader, hstart⟩
  given := by
    rw [h.given, List.filterMap_append, h.behind]
    rfl

end Walked

/-! ### Any bytes, and any callback -/

/-- Nothing but the callback of the application is called, and `callback` decides from all that it has been handed. -/
def callingBack (key : Bytes) (callback : List Bytes → Bool) : World Event Event.Answer (List Bytes) where
  pre _ e := ∃ value, e = .valuesCallback key value
  step given e r given' :=
    match e, r with
    | .valuesCallback _ value, proceed => proceed = callback (given ++ [value]) ∧ given' = given ++ [value]
    | _, _ => False

section
variable {key buf buf' : Bytes} {kv : Nat} {dataLen : Int} {touches : List Touch} {given : List Bytes}
  {callback : List Bytes → Bool} {p : Process OneDriveConnect}

/-- A conversion to `ssize_t` never adds to a number that does not lie below the type. -/
private theorem cSsize_le {x : Int} (hx : -2 ^ 63 ≤ x) : cSsize x ≤ x := by
  unfold cSsize
  rw [Int.bmod_def]
  split <;> omega

theorem wp_walkBuffer (h : Walked buf kv buf' touches given) (hlong : kvEntrySize < dataLen)
    (hfits : kv + dataLen ≤ buf.length) :
    Proc.wp (callingBack key callback).responsive (walkBuffer key buf' kv dataLen touches)
      (fun result p' given' => p' = p ∧ ∃ stop, Walked buf stop result.2.1 result.2.2 given') p given := by
  induction hn : buf.length - kv using Nat.strong_induction_on
    generalizing buf' kv dataLen touches given with
  | _ n ih =>
      rw [walkBuffer]
      split
      case h_1 hswap =>
          exfalso
          have hlength : kvEntrySize < (buf'.drop kv).length := by
            rw [List.length_drop, h.length]
            omega
          match hdrop : buf'.drop kv with
          | b₀ :: b₁ :: b₂ :: b₃ :: rest =>
              simp only [swapHeader, hdrop] at hswap
              cases hswap
          | [] | [_] | [_, _] | [_, _, _] =>
              rw [hdrop] at hlength
              simp only [kvEntrySize, List.length_cons, List.length_nil] at hlength
              omega
      case h_2 valLen buf'' hswap =>
          have hheader := h.header hswap
          simp only [Proc.wp_ite, Proc.wp_pure, Proc.wp_bind, Proc.wp_call, wp_undefinedBehaviour]
          refine ⟨fun _ => ⟨trivial, _, hheader⟩, fun hshort => ?_⟩
          refine ⟨fun _ => ⟨trivial, _, hheader⟩, fun hrest => ?_⟩
          have hleft := cSsize_le (x := dataLen - (kvEntrySize + valLen)) (by
            simp only [hiveMaxValueLen, kvEntrySize] at hshort hlong ⊢
            omega)
          generalize cSsize (dataLen - (kvEntrySize + valLen)) = left at hrest hleft ⊢
          have hvalLen : kv + kvEntrySize + valLen ≤ buf.length := by omega
          have hlength : buf''.length = buf.length := hheader.length
          refine ⟨fun hcut => by omega, fun _ => ?_⟩
          refine ⟨⟨⟨_, rfl⟩, callback _, _, rfl, rfl⟩, fun proceed given' hstep => ?_⟩
          obtain ⟨-, rfl⟩ := hstep
          have hvalue := hheader.value hvalLen ⟨kv, by simp, rfl⟩
          refine ⟨fun _ => ⟨trivial, _, hvalue⟩, fun hmore => ?_⟩
          refine ih _ ?_ hvalue (by omega) (by push_cast; omega) rfl
          simp only [kvEntrySize] at hvalLen hlong ⊢
          omega

end

/-- Whatever bytes were downloaded, and whatever the callback answers, the walk returns. What it reads and rewrites and what it hands over lies inside the buffer, one thing behind the other, and the headers it has come to have been turned around once. -/
theorem readValues_walk_inside (key buf : Bytes) :
    (buf.length ≤ kvEntrySize →
      readValues key buf.length = pure (if buf = [] then 0 else cInt (hiveGeneralError HiveErr.badPersistentData)))
    ∧ (do return (← walkBuffer key buf 0 buf.length []).1) = walkValues key buf buf.length
    ∧ (kvEntrySize < buf.length → ∀ (callback : List Bytes → Bool) (p : Process OneDriveConnect),
      ∃ tr rc buf' touches given stop, Run (walkBuffer key buf 0 buf.length [] p) tr ((rc, buf', touches), p)
        ∧ (callingBack key callback).Accepts [] tr given ∧ Walked buf stop buf' touches given) := by
  refine ⟨fun hshort => ?_, walkBuffer_result key buf 0 buf.length [], fun hlong callback p => ?_⟩
  · rw [readValues]
    cases buf with
    | nil => rfl
    | cons b buf =>
        have hpos : ((b :: buf).length : Int) > 0 ∧ ((b :: buf).length : Int) ≤ kvEntrySize := by
          rw [List.length_cons] at hshort ⊢
          omega
        rw [if_pos hpos]
        rfl
  · have hwp : Proc.wp (callingBack key callback).responsive (walkBuffer key buf 0 buf.length [])
        (fun result p' given => p' = p ∧ ∃ stop, Walked buf stop result.2.1 result.2.2 given) p [] :=
      wp_walkBuffer (Walked.start buf) (by omega) (by omega)
    obtain ⟨tr, ⟨⟨rc, buf', touches⟩, p'⟩, given, hrun, haccepts, rfl, stop, hwalked⟩ :=
      Prog.exists_run_of_wp hwp
    exact ⟨tr, rc, buf', touches, given, stop, hrun, haccepts, hwalked⟩

end HiveSdk
