import HiveSdk.Drive.Uploads
import HiveSdk.Records.Framing

/-!
# The key functions on a drive

A key is an item that holds its values as records behind big-endian lengths of four bytes. The functions tell an absent key from a failure by one code, and the specifications here keep the two ways to that code apart: the drive has said that the item is absent, or the token endpoint has answered 404 to a refresh.
-/

namespace HiveSdk

open Interaction OneDrive Framing

variable {env : Env} {p : Process OneDriveConnect} {s : Served}

/-! ### Records -/

/-- `htonl` and `ntohl` as a code of lengths. -/
def netLength : LengthCode UInt8 where
  width := kvEntrySize
  bound := 2 ^ 32 - 1
  encode := htonl
  decode
    | [b₀, b₁, b₂, b₃] => ntohl b₀ b₁ b₂ b₃
    | _ => 0
  length_encode _ := rfl
  decode_encode n hn := by
    simp only [htonl, ntohl, UInt8.toNat_ofNat']
    omega

/-- The file of a key that holds these values. -/
def encodeValues (values : List Bytes) : Bytes := netLength.join values

/-- The record that `put_value` and `set_value` write. -/
def record (value : Bytes) : Bytes := htonl value.length ++ value

theorem encodeValues_append (values : List Bytes) (value : Bytes) :
    encodeValues (values ++ [value]) = encodeValues values ++ record value := by
  rw [encodeValues, netLength.join_append, netLength.join_singleton]
  rfl

theorem encodeValues_singleton (value : Bytes) : encodeValues [value] = record value :=
  netLength.join_singleton value

/-! ### Sizes and codes -/

theorem isNotFound_length {n : Nat} (hn : n < 2 ^ 31) : isNotFound (cInt n) = false := by
  have hstatus : hiveHttpStatusError HttpStatus.notFound = 2 ^ 31 + 7 * 2 ^ 24 + 404 := by decide
  have hint : cInt n = n := cInt_eq_self (by omega) (by omega)
  rw [isNotFound, hint, hstatus, decide_eq_false_iff_not, cUInt]
  omega

theorem isNotFound_outOfMemory :
    isNotFound (cInt (cSsize (hiveGeneralError HiveErr.outOfMemory))) = false := by decide

theorem cInt_cSsize_general_neg {code : Nat} (hcode : code < 2 ^ 24) :
    cInt (cSsize (hiveGeneralError code)) < 0 := by
  have hself : cSsize (hiveGeneralError code) = hiveGeneralError code := by
    rw [hiveGeneralError, cSsize_hiveMkError .general hcode, hiveMkError_eq .general hcode]
    push_cast
    ring
  rw [hself]
  exact cInt_hiveMkError_neg .general hcode

theorem Drive.content_of_items {d : Drive} {path content : Bytes}
    (h : d.items path = some content) : d.content path = content := by
  rw [Drive.content, h]
  rfl

theorem Drive.content_of_absent {d : Drive} {path : Bytes} (h : d.items path = none) :
    d.content path = [] := by
  rw [Drive.content, h]
  rfl

/-! ### Writing -/

private theorem wp_appendValue {path value content : Bytes}
    {Q : Int → Process OneDriveConnect → Served → Prop} (hincident : ¬ env.reliable)
    (hitem : s.drive.items path = some content ∨ content = [])
    (hok : ∀ (p' : Process OneDriveConnect) t exchanged, env.Kept p p' →
      Stored s t path (content ++ record value) exchanged → Q 0 p' t)
    (hfail : ∀ rc (p' : Process OneDriveConnect) t, rc < 0 → Q rc p' t) :
    Proc.wp env.world (appendValue path value content.length) Q p s := by
  rw [appendValue, Proc.wp_bind, wp_call_local rfl]
  intro allocated _
  rw [Proc.wp_ite, Proc.wp_pure]
  refine ⟨fun _ => hfail _ p s (fails_hiveGeneralError (by decide)).neg, fun _ => ?_⟩
  dsimp only
  rw [Proc.wp_ite]
  constructor
  · intro hpos
    have hitem : s.drive.items path = some content := by
      rcases hitem with h | h
      · exact h
      · simp [h] at hpos
    rw [Proc.wp_bind]
    apply wp_getFileToBuffer fun hreliable => absurd hreliable hincident
    · exact fun hreliable => absurd hreliable hincident
    · exact fun hreliable => absurd hreliable hincident
    · intro content' p₁ t xs hitem' hkept hquiet _
      obtain rfl : content = content' := Option.some.inj (hitem.symm.trans hitem')
      dsimp only [Exit.value]
      rw [Proc.wp_ite, Proc.wp_pure]
      refine ⟨fun hneg => hfail _ p₁ t hneg, fun _ => ?_⟩
      rw [if_neg (by simp), Int.toNat_natCast, List.take_left' rfl, List.append_assoc]
      apply wp_putFileFromBuffer hincident
      · intro p' u ys hkept' hstored
        refine hok p' u _ (fun hvalid => ?_) (hquiet.stored hstored)
        have hconn := hkept hvalid
        exact (hkept' (hconn ▸ hvalid)).trans hconn
      · exact hfail
    · exact fun _ _ _ hreliable => absurd hreliable hincident
    · intro rc block' p' t _ hrc
      dsimp only [Exit.value]
      rw [hrc.int, if_pos hrc.neg, Proc.wp_pure]
      exact hfail rc p' t hrc.neg
    · intro code block' p' t _ hcode _
      dsimp only [Exit.value]
      rw [if_pos (cInt_cSsize_general_neg hcode), Proc.wp_pure]
      exact hfail _ p' t (cInt_cSsize_general_neg hcode)
  · intro hzero
    have hnil : content = [] := List.length_eq_zero_iff.1 (by omega)
    subst hnil
    apply wp_putFileFromBuffer hincident
    · intro p' t xs hkept hstored
      exact hok p' t xs hkept hstored
    · exact hfail

/-- A look-up that ran out of memory looks like a huge item; then nothing is written. -/
private theorem wp_appendValue_outOfMemory {path value : Bytes}
    {Q : Int → Process OneDriveConnect → Served → Prop} (hincident : ¬ env.reliable)
    (hfail : ∀ rc (p' : Process OneDriveConnect) t, rc < 0 → Q rc p' t) :
    Proc.wp env.world (appendValue path value (cSsize (hiveGeneralError HiveErr.outOfMemory)))
      Q p s := by
  have hpos : cSsize (hiveGeneralError HiveErr.outOfMemory) > 0 := by decide
  rw [appendValue, Proc.wp_bind, wp_call_local rfl]
  intro allocated _
  rw [Proc.wp_ite, Proc.wp_pure]
  refine ⟨fun _ => hfail _ p s (fails_hiveGeneralError (by decide)).neg, fun _ => ?_⟩
  dsimp only
  rw [if_pos hpos, Proc.wp_bind]
  apply wp_getFileToBuffer fun hreliable => absurd hreliable hincident
  · exact fun hreliable => absurd hreliable hincident
  · exact fun hreliable => absurd hreliable hincident
  · intro content p₁ t xs _ _ _ _
    have hneg : cInt (cSsize (hiveGeneralError HiveErr.outOfMemory)) < 0 :=
      cInt_cSsize_general_neg (by decide)
    dsimp only [Exit.value]
    rw [Proc.wp_ite, Proc.wp_pure]
    refine ⟨fun hread => hfail _ p₁ t hread, fun hread => ?_⟩
    rw [if_pos (by omega), Proc.wp_pure]
    exact hfail _ p₁ t (fails_hiveGeneralError (by decide)).neg
  · exact fun _ _ _ hreliable => absurd hreliable hincident
  · intro rc block' p' t _ hrc
    dsimp only [Exit.value]
    rw [hrc.int, if_pos hrc.neg, Proc.wp_pure]
    exact hfail rc p' t hrc.neg
  · intro code block' p' t _ hcode _
    dsimp only [Exit.value]
    rw [if_pos (cInt_cSsize_general_neg hcode), Proc.wp_pure]
    exact hfail _ p' t (cInt_cSsize_general_neg hcode)

/-- A content that `put_value` takes for an absent item: the lower half of its length is the code for one. -/
def TakenForAbsent (content : Bytes) : Prop := isNotFound (cInt content.length) = true

theorem not_takenForAbsent {content : Bytes} (h : content.length < 2 ^ 31) :
    ¬ TakenForAbsent content := by
  rw [TakenForAbsent, isNotFound_length h]
  exact Bool.false_ne_true

/-- A successful `put_value` stores one body. It ends in the new record, and what stands before it is the content of the item, unless the call began with a refused refresh or the content has the length of an error code. -/
theorem wp_putValue_any {key value : Bytes} {Q : Int → Process OneDriveConnect → Served → Prop}
    (hincident : ¬ env.reliable)
    (hok : ∀ content (p' : Process OneDriveConnect) t exchanged, env.Kept p p' →
      Stored s t (keyPath key) (content ++ record value) exchanged →
      (¬ Refused exchanged ∧ ¬ TakenForAbsent (s.drive.content (keyPath key))
          ∧ content = s.drive.content (keyPath key)
        ∨ (¬ env.Valid p.conn.token ∧ Refused exchanged
            ∨ TakenForAbsent (s.drive.content (keyPath key))) ∧ content = []) → Q 0 p' t)
    (hfail : ∀ rc (p' : Process OneDriveConnect) t, rc < 0 → Q rc p' t) :
    Proc.wp env.world (putValue key value) Q p s := by
  have hafter : ∀ {content : Bytes} {p₁ : Process OneDriveConnect} {t : Served}
      {xs : List Exchange}, Asked s t xs → env.Kept p p₁ →
      (t.drive.items (keyPath key) = some content ∨ content = []) →
      (¬ TakenForAbsent (s.drive.content (keyPath key)) ∧ content = s.drive.content (keyPath key)
        ∨ TakenForAbsent (s.drive.content (keyPath key)) ∧ content = []) →
      Proc.wp env.world (appendValue (keyPath key) value content.length) Q p₁ t := by
    intro content p₁ t xs hasked hkept hitem hcontent
    apply wp_appendValue hincident hitem
    · intro p' u ys hkept' hstored
      have hnot : ¬ Refused (xs ++ ys) := by
        rw [refused_append hasked.ne_nil]
        exact hasked.not_refused
      refine hok content p' u _ (fun hvalid => ?_) (hasked.stored hstored) ?_
      · have hconn := hkept hvalid
        exact (hkept' (hconn ▸ hvalid)).trans hconn
      · exact hcontent.imp (fun h => ⟨hnot, h⟩) fun h => ⟨.inr h.1, h.2⟩
    · exact hfail
  have hnil : ([] : Bytes) = [] := rfl
  rw [putValue, Proc.wp_bind]
  apply wp_getFileLength
  · exact fun hreliable => absurd hreliable hincident
  · exact fun hreliable => absurd hreliable hincident
  · intro content p₁ t xs hitem hkept hasked _ _
    have hcontent : s.drive.content (keyPath key) = content := Drive.content_of_items hitem
    dsimp only [Exit.value]
    rw [← hcontent]
    cases htaken : isNotFound (cInt ((s.drive.content (keyPath key)).length : Int)) with
    | true =>
        rw [if_pos rfl]
        exact hafter hasked hkept (.inr hnil) (.inr ⟨htaken, rfl⟩)
    | false =>
        have hnot : ¬ TakenForAbsent (s.drive.content (keyPath key)) := by simp [TakenForAbsent, htaken]
        rw [if_neg Bool.false_ne_true, if_neg (by omega)]
        refine hafter hasked hkept (.inl ?_) (.inl ⟨hnot, rfl⟩)
        rw [hasked.items, hitem, hcontent]
  · intro p₁ t xs hitem hkept hasked _
    have hcontent : s.drive.content (keyPath key) = [] := Drive.content_of_absent hitem
    dsimp only [Exit.value]
    rw [cInt_cInt, if_pos isNotFound_hiveHttpStatusError]
    apply hafter hasked hkept (.inr hnil) (.inl ⟨?_, hcontent.symm⟩)
    rw [hcontent]
    exact not_takenForAbsent (by decide)
  · intro p₁ t xs hexpired hquiet hrefused
    dsimp only [Exit.value]
    rw [cInt_cInt, if_pos isNotFound_hiveHttpStatusError]
    have hne : xs ≠ [] := by
      rintro rfl
      obtain ⟨x, hx, -⟩ := hrefused
      cases hx
    apply wp_appendValue hincident (.inr hnil)
    · intro p' u ys _ hstored
      exact hok [] p' u _ (fun hvalid => absurd hvalid hexpired) (hquiet.stored hstored)
        (.inr ⟨.inl ⟨hexpired, (refused_append hne ys).2 hrefused⟩, rfl⟩)
    · exact hfail
  · intro rc p' t _ hrc
    dsimp only [Exit.value]
    rw [hrc.int, hrc.found, if_neg Bool.false_ne_true, if_pos hrc.neg, Proc.wp_pure]
    exact hfail rc p' t hrc.neg
  · intro p₁ t _ _
    dsimp only [Exit.value]
    rw [isNotFound_outOfMemory, if_neg Bool.false_ne_true, if_neg (by decide)]
    exact wp_appendValue_outOfMemory hincident hfail

/-- No item of a small drive has the length of an error code. -/
theorem wp_putValue {key value : Bytes} {Q : Int → Process OneDriveConnect → Served → Prop}
    (hincident : ¬ env.reliable) (hsmall : s.drive.Small)
    (hok : ∀ content (p' : Process OneDriveConnect) t exchanged, env.Kept p p' →
      Stored s t (keyPath key) (content ++ record value) exchanged →
      (¬ Refused exchanged ∧ content = s.drive.content (keyPath key)
        ∨ ¬ env.Valid p.conn.token ∧ Refused exchanged ∧ content = []) → Q 0 p' t)
    (hfail : ∀ rc (p' : Process OneDriveConnect) t, rc < 0 → Q rc p' t) :
    Proc.wp env.world (putValue key value) Q p s := by
  have hnot : ¬ TakenForAbsent (s.drive.content (keyPath key)) := by
    apply not_takenForAbsent
    rcases hitem : s.drive.items (keyPath key) with _ | content
    · rw [Drive.content_of_absent hitem]
      decide
    · rw [Drive.content_of_items hitem]
      exact hsmall _ _ hitem
  apply wp_putValue_any hincident
  · intro content p' t xs hkept hstored hcontent
    apply hok content p' t xs hkept hstored
    rcases hcontent with ⟨hrefused, -, hcontent⟩ | ⟨hrefused | htaken, hcontent⟩
    · exact .inl ⟨hrefused, hcontent⟩
    · exact .inr ⟨hrefused.1, hrefused.2, hcontent⟩
    · exact absurd htaken hnot
  · exact hfail

theorem wp_setValue {key value : Bytes} {Q : Int → Process OneDriveConnect → Served → Prop}
    (hincident : ¬ env.reliable)
    (hok : ∀ (p' : Process OneDriveConnect) t exchanged, env.Kept p p' →
      Stored s t (keyPath key) (record value) exchanged → Q 0 p' t)
    (hfail : ∀ rc (p' : Process OneDriveConnect) t, rc < 0 → Q rc p' t) :
    Proc.wp env.world (setValue key value) Q p s := by
  rw [setValue, Proc.wp_bind, wp_call_local rfl]
  intro allocated _
  rw [Proc.wp_ite, Proc.wp_pure]
  refine ⟨fun _ => hfail _ p s (fails_hiveGeneralError (by decide)).neg, fun _ => ?_⟩
  exact wp_putFileFromBuffer hincident hok hfail

theorem wp_deleteKey {key : Bytes} {Q : Int → Process OneDriveConnect → Served → Prop}
    (hincident : ¬ env.reliable)
    (hremoved : ∀ (p' : Process OneDriveConnect) t exchanged, env.Kept p p' →
      Removed s t (keyPath key) exchanged → Q 0 p' t)
    (hrefused : ∀ (p' : Process OneDriveConnect) t exchanged, ¬ env.Valid p.conn.token →
      Quiet s t exchanged → Refused exchanged → Q 0 p' t)
    (hfail : ∀ rc (p' : Process OneDriveConnect) t, rc < 0 → Q rc p' t) :
    Proc.wp env.world (deleteKey key) Q p s := by
  rw [deleteKey, Proc.wp_bind]
  apply wp_deleteFile hincident
  · intro rc p' t xs hkept hrc hremoved'
    rw [Proc.wp_ite]
    constructor
    · intro hfailed
      rcases hrc with rfl | ⟨rfl, -⟩
      · exact absurd hfailed.1 (by decide)
      · exact absurd isNotFound_hiveHttpStatusError hfailed.2
    · intro _
      exact hremoved p' t xs hkept hremoved'
  · intro p' t xs hexpired hquiet hrefused'
    rw [if_neg fun h => h.2 isNotFound_hiveHttpStatusError, Proc.wp_pure]
    exact hrefused p' t xs hexpired hquiet hrefused'
  · intro rc p' t hrc
    have hfound : ¬ isNotFound rc = true := by
      rw [hrc.found]
      decide
    rw [if_pos ⟨hrc.neg, hfound⟩, Proc.wp_pure]
    exact hfail rc p' t hrc.neg

/-! ### Reading -/

/-- What the walk refuses: a value that is too long, one that runs over the end, and a rest that could only hold a length. -/
def RefusedRecord (valLen : Nat) (rest : Int) : Prop :=
  valLen > hiveMaxValueLen ∨ rest < 0 ∨ rest > 0 ∧ rest ≤ kvEntrySize

/-- One round of the walk: every failure is negative, and only a record that runs over the end of the buffer is undefined. -/
theorem wp_walkValues_cons {key : Bytes} {b₀ b₁ b₂ b₃ : UInt8} {body : Bytes}
    {dataLen rest : Int} {valLen : Nat} {Q : Int → Process OneDriveConnect → Served → Prop}
    (hvalLen : ntohl b₀ b₁ b₂ b₃ = valLen) (hrest : cSsize (dataLen - (kvEntrySize + valLen)) = rest)
    (hbad : RefusedRecord valLen rest → Q (cInt (hiveGeneralError HiveErr.badPersistentData)) p s)
    (hcut : ¬ RefusedRecord valLen rest → body.length < valLen → ¬ env.reliable)
    (hnext : ∀ proceed t, ¬ RefusedRecord valLen rest →
      t = { s with callbacks := s.callbacks ++ [(key, body.take valLen, proceed)] } →
      (rest = 0 ∨ proceed = false → Q 0 p t) ∧ (rest ≠ 0 → proceed = true →
        Proc.wp env.world (walkValues key (body.drop valLen) rest) Q p t)) :
    Proc.wp env.world (walkValues key (b₀ :: b₁ :: b₂ :: b₃ :: body) dataLen) Q p s := by
  subst hvalLen hrest
  rw [walkValues]
  simp only [Proc.wp_ite, Proc.wp_pure, Proc.wp_bind, wp_undefinedBehaviour,
    Proc.wp_call]
  refine ⟨fun h => hbad (.inl h), fun hshort => ⟨fun h => hbad (.inr h), fun hfits => ?_⟩⟩
  have hgood : ¬ RefusedRecord _ _ := fun h => h.elim hshort hfits
  refine ⟨fun h _ => hcut hgood h, fun _ => ⟨by simp, fun proceed t hstep => ?_⟩⟩
  obtain ⟨hstop, hgo⟩ := hnext proceed t hgood hstep
  refine ⟨fun h => hstop (by simpa using h), fun h => ?_⟩
  obtain ⟨hmore, hproceed⟩ := not_or.1 h
  exact hgo hmore (by simpa using hproceed)

/-- A walk that ends well has called back. -/
private theorem wp_walkValues_called {key : Bytes}
    {Q : Int → Process OneDriveConnect → Served → Prop} (hincident : ¬ env.reliable)
    (hfail : ∀ rc (p' : Process OneDriveConnect) t, rc < 0 → Q rc p' t) {rest : Bytes} {dataLen : Int}
    (hok : ∀ t c cs, t.callbacks = s.callbacks ++ c :: cs → Q 0 p t) :
    Proc.wp env.world (walkValues key rest dataLen) Q p s := by
  induction hn : rest.length using Nat.strong_induction_on generalizing rest dataLen s with
  | _ n ih =>
      by_cases hhead : ∃ b₀ b₁ b₂ b₃ body, rest = b₀ :: b₁ :: b₂ :: b₃ :: body
      · obtain ⟨b₀, b₁, b₂, b₃, body, rfl⟩ := hhead
        apply wp_walkValues_cons rfl rfl
        · exact fun _ => hfail _ p s (fails_hiveGeneralError (by decide)).neg
        · exact fun _ _ => hincident
        · intro proceed t _ ht
          refine ⟨fun _ => hok t _ [] (by rw [ht]), fun _ _ => ?_⟩
          have hlt : (body.drop (ntohl b₀ b₁ b₂ b₃)).length < n := by
            simp only [← hn, List.length_drop, List.length_cons]
            omega
          refine ih _ hlt (fun u c cs hcallbacks => ?_) rfl
          rw [ht, List.append_assoc] at hcallbacks
          exact hok u _ (c :: cs) hcallbacks
      · rw [walkValues]
        · exact (wp_undefinedBehaviour ..).2 fun _ => hincident
        · intro b₀ b₁ b₂ b₃ body hrest
          exact hhead ⟨b₀, b₁, b₂, b₃, body, hrest⟩

/-- The callbacks of a reader that stops when it is told to. -/
def Delivers (key : Bytes) : List Bytes → List Callback → Prop
  | [], calls => calls = []
  | v :: vs, calls => ∃ proceed rest, calls = (key, v, proceed) :: rest
      ∧ if proceed then Delivers key vs rest else rest = []

/-- What a caller of `hive_set_value` and `hive_put_value` may store. -/
def Storable (v : Bytes) : Prop := v ≠ [] ∧ v.length ≤ hiveMaxValueLen

theorem wp_walkValues_records {key : Bytes} {values : List Bytes}
    {Q : Int → Process OneDriveConnect → Served → Prop} (hne : values ≠ [])
    (hvalues : ∀ v ∈ values, Storable v) (hlarge : (encodeValues values).length < 2 ^ 31)
    (hok : ∀ calls, Delivers key values calls →
      Q 0 p { s with callbacks := s.callbacks ++ calls }) :
    Proc.wp env.world (walkValues key (encodeValues values) (encodeValues values).length) Q p s := by
  induction values generalizing s with
  | nil => exact absurd rfl hne
  | cons v vs ih =>
      have hv := (hvalues v List.mem_cons_self).2
      have hvs : ∀ w ∈ vs, Storable w := fun w hw => hvalues w (List.mem_cons_of_mem v hw)
      have hsplit : encodeValues (v :: vs) = netLength.frame v ++ encodeValues vs := rfl
      have hlength : (encodeValues (v :: vs)).length
          = kvEntrySize + v.length + (encodeValues vs).length := by
        rw [hsplit, List.length_append, netLength.length_frame]
        rfl
      have hmax : hiveMaxValueLen = 32768 := rfl
      have hdecode : ntohl (UInt8.ofNat (v.length / 2 ^ 24)) (UInt8.ofNat (v.length / 2 ^ 16))
          (UInt8.ofNat (v.length / 2 ^ 8)) (UInt8.ofNat v.length) = v.length :=
        netLength.decode_encode v.length (by rw [show netLength.bound = 2 ^ 32 - 1 from rfl]; omega)
      have hrest : cSsize (((encodeValues (v :: vs)).length : Int) - (kvEntrySize + v.length))
          = (encodeValues vs).length := by
        rw [hlength]
        push_cast
        rw [add_sub_cancel_left]
        exact cSsize_eq_self (by omega) (by omega)
      have htake : (v ++ encodeValues vs).take v.length = v := List.take_left' rfl
      have hdrop : (v ++ encodeValues vs).drop v.length = encodeValues vs := List.drop_left' rfl
      have hcons : encodeValues (v :: vs) = UInt8.ofNat (v.length / 2 ^ 24)
          :: UInt8.ofNat (v.length / 2 ^ 16) :: UInt8.ofNat (v.length / 2 ^ 8)
          :: UInt8.ofNat v.length :: (v ++ encodeValues vs) := rfl
      generalize ((encodeValues (v :: vs)).length : Int) = dataLen at hrest ⊢
      rw [hcons]
      apply wp_walkValues_cons hdecode hrest
      · intro hbad
        rw [RefusedRecord] at hbad
        by_cases hnil : vs = []
        · have hzero : (encodeValues vs).length = 0 := by rw [hnil]; rfl
          omega
        · have hlt : kvEntrySize < (encodeValues vs).length :=
            netLength.width_lt_length_join hnil fun w hw => (hvs w hw).1
          omega
      · intro _ hcut
        rw [List.length_append] at hcut
        omega
      · intro proceed t _ ht
        rw [htake] at ht
        rw [hdrop]
        constructor
        · intro hstop
          rw [ht]
          apply hok
          refine ⟨proceed, [], rfl, ?_⟩
          rcases hstop with hzero | hfalse
          · have hnil : vs = [] := by
              by_contra hnil
              have hlt : kvEntrySize < (encodeValues vs).length :=
                netLength.width_lt_length_join hnil fun w hw => (hvs w hw).1
              omega
            rw [hnil]
            cases proceed <;> rfl
          · rw [hfalse]
            rfl
        · intro hmore hproceed
          have hnil : vs ≠ [] := by
            rintro rfl
            exact hmore rfl
          apply ih hnil hvs (by omega)
          intro calls hcalls
          rw [ht, List.append_assoc]
          apply hok
          refine ⟨proceed, calls, rfl, ?_⟩
          rw [hproceed]
          exact hcalls

private theorem wp_readValues_called {key : Bytes} {dataLen : Int}
    {Q : Int → Process OneDriveConnect → Served → Prop} (hincident : ¬ env.reliable)
    (hpos : dataLen ≠ 0)
    (hok : ∀ (p' : Process OneDriveConnect) t c cs, t.callbacks = s.callbacks ++ c :: cs → Q 0 p' t)
    (hfail : ∀ rc (p' : Process OneDriveConnect) t, rc < 0 → Q rc p' t) :
    Proc.wp env.world (readValues key dataLen) Q p s := by
  rw [readValues]
  simp only [Proc.wp_ite, Proc.wp_pure, Proc.wp_bind]
  refine ⟨fun _ => hfail _ p s (fails_hiveGeneralError (by decide)).neg, fun _ => ?_⟩
  refine ⟨fun hzero => absurd hzero hpos, fun _ => ?_⟩
  rw [wp_call_local rfl]
  intro allocated _
  rw [Proc.wp_ite, Proc.wp_pure]
  refine ⟨fun _ => hfail _ p s (fails_hiveGeneralError (by decide)).neg, fun _ => ?_⟩
  rw [Proc.wp_bind]
  apply wp_getFileToBuffer fun hreliable => absurd hreliable hincident
  · exact fun hreliable => absurd hreliable hincident
  · exact fun hreliable => absurd hreliable hincident
  · intro content p₁ t xs _ _ hquiet _
    simp only [Exit.value, Proc.wp_ite, Proc.wp_pure]
    refine ⟨fun hneg => absurd hneg (by omega), fun _ => ?_⟩
    refine ⟨fun _ => hfail _ p₁ t (fails_hiveGeneralError (by decide)).neg, fun _ => ?_⟩
    apply wp_walkValues_called hincident hfail
    intro u c cs hcallbacks
    exact hok p₁ u c cs (hquiet.callbacks ▸ hcallbacks)
  · exact fun _ _ _ hreliable => absurd hreliable hincident
  · intro rc block' p' t _ hrc
    dsimp only [Exit.value]
    rw [if_pos hrc.neg, Proc.wp_pure, hrc.int]
    exact hfail rc p' t hrc.neg
  · intro code block' p' t _ hcode hcallbacks
    have hrc := cSsize_hiveMkError .general hcode
    simp only [Exit.value, Proc.wp_ite, Proc.wp_pure]
    refine ⟨fun hneg => absurd hneg (by rw [hiveGeneralError, hrc]; omega), fun _ => ?_⟩
    refine ⟨fun _ => hfail _ p' t (fails_hiveGeneralError (by decide)).neg, fun _ => ?_⟩
    apply wp_walkValues_called hincident hfail
    intro u c cs hcallbacks'
    exact hok p' u c cs (hcallbacks ▸ hcallbacks')

/-- The three ways to a success of `get_values`: a callback, an item without content, or a refused refresh. -/
theorem wp_getValues_claims {key : Bytes} {Q : Int → Process OneDriveConnect → Served → Prop}
    (hincident : ¬ env.reliable) (hsmall : s.drive.Small)
    (hcalled : ∀ (p' : Process OneDriveConnect) t c cs, t.callbacks = s.callbacks ++ c :: cs →
      Q 0 p' t)
    (hempty : ∀ (p' : Process OneDriveConnect) t exchanged, Asked s t exchanged →
      s.drive.content (keyPath key) = [] → Q 0 p' t)
    (hrefused : ∀ (p' : Process OneDriveConnect) t exchanged, Quiet s t exchanged →
      Refused exchanged → Q 0 p' t)
    (hfail : ∀ rc (p' : Process OneDriveConnect) t, rc < 0 → Q rc p' t) :
    Proc.wp env.world (getValues key) Q p s := by
  have hzero : ∀ {p' : Process OneDriveConnect} {t : Served}, Q 0 p' t →
      Proc.wp env.world (readValues key 0) Q p' t := by
    intro p' t h
    rw [readValues, if_neg (by decide), if_pos rfl]
    exact h
  have hread : ∀ {dataLen : Int} {p' : Process OneDriveConnect} {t : Served},
      dataLen ≠ 0 → t.callbacks = s.callbacks → Proc.wp env.world (readValues key dataLen) Q p' t := by
    intro dataLen p' t hpos hcallbacks
    apply wp_readValues_called hincident hpos
    · intro p'' u c cs h
      exact hcalled p'' u c cs (hcallbacks ▸ h)
    · exact hfail
  rw [getValues, Proc.wp_bind]
  apply wp_getFileLength
  · exact fun hreliable => absurd hreliable hincident
  · exact fun hreliable => absurd hreliable hincident
  · intro content p₁ t xs hitem _ hasked _ _
    dsimp only [Exit.value]
    rw [isNotFound_length (hsmall _ _ hitem), if_neg Bool.false_ne_true, if_neg (by omega)]
    by_cases hnil : content = []
    · subst hnil
      exact hzero (hempty p₁ t xs hasked (Drive.content_of_items hitem))
    · apply hread _ hasked.callbacks
      have hpos := List.length_pos_of_ne_nil hnil
      omega
  · intro p₁ t xs hitem _ hasked _
    dsimp only [Exit.value]
    rw [cInt_cInt, if_pos isNotFound_hiveHttpStatusError]
    exact hzero (hempty p₁ t xs hasked (Drive.content_of_absent hitem))
  · intro p₁ t xs _ hquiet hrefused'
    dsimp only [Exit.value]
    rw [cInt_cInt, if_pos isNotFound_hiveHttpStatusError]
    exact hzero (hrefused p₁ t xs hquiet hrefused')
  · intro rc p' t _ hrc
    dsimp only [Exit.value]
    rw [hrc.int, hrc.found, if_neg Bool.false_ne_true, if_pos hrc.neg, Proc.wp_pure]
    exact hfail rc p' t hrc.neg
  · intro p₁ t _ hquiet
    obtain ⟨xs, hquiet⟩ := hquiet
    dsimp only [Exit.value]
    rw [isNotFound_outOfMemory, if_neg Bool.false_ne_true, if_neg (by decide)]
    exact hread (by decide) hquiet.callbacks

/-! ### The public functions -/

private theorem wp_failWith {σ τ : Type} {W : World Event Event.Answer τ} {p : Process σ} {s : τ}
    {err : Int} {Q : Int → Process σ → τ → Prop} (h : ∀ p', Q (-1) p' s) :
    Proc.wp W (failWith err) Q p s := h _

theorem checkedValue_eq {value v : Bytes} {length : Nat}
    (h : checkedValue (some value) length = some v) : value.take length = v := by
  simp only [checkedValue, Option.bind_eq_bind, Option.bind_some] at h
  split at h
  · cases h
  · exact Option.some.inj h

/-- The public function on arguments that pass its checks. -/
theorem wp_hivePutValue_of {key value : Option Bytes} {length : Nat}
    {Q : Int → Process OneDriveConnect → Served → Prop}
    (h : ∀ k v, key = some k → checkedValue value length = some v →
      Proc.wp env.world (putValue k v) (fun rc p' t =>
        if rc < 0 then Q (-1) { p' with hiveError := rc } t else Q 0 p' t) p s)
    (hfail : ∀ p' : Process OneDriveConnect, Q (-1) p' s) :
    Proc.wp env.world (hivePutValue (some OneDrive.table) key value length) Q p s := by
  unfold hivePutValue
  rcases hkey : nonEmpty key with _ | k
  · exact wp_failWith hfail
  rcases hvalue : checkedValue value length with _ | v
  · exact wp_failWith hfail
  exact wp_dispatch (h k v (Option.filter_eq_some_iff.1 hkey).1 hvalue)

theorem wp_hivePutValue {key value : Option Bytes} {length : Nat}
    {Q : Int → Process OneDriveConnect → Served → Prop}
    (hincident : ¬ env.reliable) (hsmall : s.drive.Small)
    (hok : ∀ k v content (p' : Process OneDriveConnect) t exchanged, key = some k →
      checkedValue value length = some v → env.Kept p p' →
      Stored s t (keyPath k) (content ++ record v) exchanged →
      (¬ Refused exchanged ∧ content = s.drive.content (keyPath k)
        ∨ ¬ env.Valid p.conn.token ∧ Refused exchanged ∧ content = []) → Q 0 p' t)
    (hfail : ∀ (p' : Process OneDriveConnect) t, Q (-1) p' t) :
    Proc.wp env.world (hivePutValue (some OneDrive.table) key value length) Q p s := by
  apply wp_hivePutValue_of _ fun p' => hfail p' s
  intro k v hkey hvalue
  apply wp_putValue hincident hsmall
  · intro content p' t xs hkept hstored hcontent
    exact hok k v content p' t xs hkey hvalue hkept hstored hcontent
  · intro rc p' t hrc
    rw [if_pos hrc]
    exact hfail _ t

theorem wp_hiveSetValue {key value : Option Bytes} {length : Nat}
    {Q : Int → Process OneDriveConnect → Served → Prop} (hincident : ¬ env.reliable)
    (hok : ∀ k v (p' : Process OneDriveConnect) t exchanged, key = some k →
      checkedValue value length = some v → env.Kept p p' →
      Stored s t (keyPath k) (record v) exchanged → Q 0 p' t)
    (hfail : ∀ (p' : Process OneDriveConnect) t, Q (-1) p' t) :
    Proc.wp env.world (hiveSetValue (some OneDrive.table) key value length) Q p s := by
  unfold hiveSetValue
  rcases hkey : nonEmpty key with _ | k
  · exact wp_failWith fun p' => hfail p' s
  rcases hvalue : checkedValue value length with _ | v
  · exact wp_failWith fun p' => hfail p' s
  have hkey' : key = some k := (Option.filter_eq_some_iff.1 hkey).1
  apply wp_dispatch
  apply wp_setValue hincident
  · intro p' t xs hkept hstored
    exact hok k v p' t xs hkey' hvalue hkept hstored
  · intro rc p' t hrc
    rw [if_pos hrc]
    exact hfail _ t

theorem wp_hiveDeleteKey {key : Option Bytes} {Q : Int → Process OneDriveConnect → Served → Prop}
    (hincident : ¬ env.reliable)
    (hremoved : ∀ k (p' : Process OneDriveConnect) t exchanged, key = some k → env.Kept p p' →
      Removed s t (keyPath k) exchanged → Q 0 p' t)
    (hrefused : ∀ k (p' : Process OneDriveConnect) t exchanged, key = some k →
      ¬ env.Valid p.conn.token → Quiet s t exchanged → Refused exchanged → Q 0 p' t)
    (hfail : ∀ (p' : Process OneDriveConnect) t, Q (-1) p' t) :
    Proc.wp env.world (hiveDeleteKey (some OneDrive.table) key) Q p s := by
  unfold hiveDeleteKey
  rcases hkey : nonEmpty key with _ | k
  · exact wp_failWith fun p' => hfail p' s
  have hkey' : key = some k := (Option.filter_eq_some_iff.1 hkey).1
  apply wp_dispatch
  apply wp_deleteKey hincident
  · intro p' t xs hkept hremoved'
    exact hremoved k p' t xs hkey' hkept hremoved'
  · intro p' t xs hexpired hquiet hrefused'
    exact hrefused k p' t xs hkey' hexpired hquiet hrefused'
  · intro rc p' t hrc
    rw [if_pos hrc]
    exact hfail _ t

theorem wp_hiveGetValues {key : Option Bytes} {Q : Int → Process OneDriveConnect → Served → Prop}
    (h : ∀ k, key = some k → Proc.wp env.world (getValues k) (fun rc p' t =>
      if rc < 0 then Q (-1) { p' with hiveError := rc } t else Q 0 p' t) p s)
    (hfail : ∀ p' : Process OneDriveConnect, Q (-1) p' s) :
    Proc.wp env.world (hiveGetValues (some OneDrive.table) key true) Q p s := by
  unfold hiveGetValues
  rcases hkey : nonEmpty key with _ | k
  · exact wp_failWith hfail
  · exact wp_dispatch (h k (Option.filter_eq_some_iff.1 hkey).1)

/-! ### What a put uploads -/

/-- The one body that a successful `hive_put_value` uploads continues the content of the key, unless the call began with a refresh that the token endpoint answered with 404: then it replaces it. -/
theorem put_uploads_iff (env : Env) {p p' : Process OneDriveConnect} {s t : Served}
    {key value : Bytes} {length : Nat} {tr : Trace} (hsmall : s.drive.Small)
    (hrun : Run (hivePutValue (some OneDrive.table) (some key) (some value) length p) tr (0, p'))
    (haccepts : env.adverse.world.Accepts s tr t) :
    (puts (exchanges tr) = [s.drive.content (keyPath key) ++ record (value.take length)]
      ∧ t.drive.content (keyPath key)
        = s.drive.content (keyPath key) ++ record (value.take length))
      ↔ ¬ (Refused (exchanges tr) ∧ s.drive.content (keyPath key) ≠ []) := by
  have hspec : Proc.wp env.adverse.world
      (hivePutValue (some OneDrive.table) (some key) (some value) length)
      (fun rc _ t => rc = 0 → ∀ exchanged, t.history = s.history ++ exchanged →
        ((puts exchanged = [s.drive.content (keyPath key) ++ record (value.take length)]
          ∧ t.drive.content (keyPath key)
            = s.drive.content (keyPath key) ++ record (value.take length))
          ↔ ¬ (Refused exchanged ∧ s.drive.content (keyPath key) ≠ []))) p s := by
    apply @wp_hivePutValue env.adverse _ _ _ _ _ _ (fun h => h) hsmall
    · intro k v content p' t xs hk hv _ hstored hcontent _ exchanged hhistory
      obtain rfl : key = k := Option.some.inj hk
      obtain rfl : value.take length = v := checkedValue_eq hv
      obtain rfl : exchanged = xs := List.append_cancel_left (hhistory.symm.trans hstored.history)
      have hafter : t.drive.content (keyPath key) = content ++ record (value.take length) := by
        apply Drive.content_of_items
        rw [hstored.items, Function.update_self]
      rw [hstored.puts, hafter, List.singleton_inj, List.append_cancel_right_eq, and_self]
      rcases hcontent with ⟨hnot, hcontent⟩ | ⟨-, hrefused, hcontent⟩
      · exact ⟨fun _ h => hnot h.1, fun _ => hcontent⟩
      · rw [hcontent]
        exact ⟨fun h h' => h'.2 h.symm, fun h => (not_not.1 fun hne => h ⟨hrefused, hne⟩).symm⟩
    · intro p' t h
      exact absurd h (by decide)
  exact Prog.wp_run hspec hrun haccepts rfl _ (Env.recorded haccepts).1

/-! A drive with one key, and a first value for it. -/

def demoKey : Bytes := bytes "k"

/-- The drive on which the key `k` has these items. -/
def demoServed (items : Option Bytes) : Served where
  drive := ⟨fun path => if path = keyPath demoKey then items else none, fun _ => none, fun _ => none⟩
  history := []
  callbacks := []

theorem demoServed_small {items : Option Bytes} (h : ∀ content ∈ items, content.length < 2 ^ 31) :
    (demoServed items).drive.Small := by
  intro path content hitem
  simp only [demoServed] at hitem
  split at hitem
  · exact h content hitem
  · cases hitem

def demoInfo : Request where
  method := .get
  url := .item (keyPath demoKey) []
  query := [(bytes "select", bytes "size")]
  headers := [(authorization, bytes "A")]

def demoPut (accessToken body : Bytes) : Request where
  method := .put
  url := .item (keyPath demoKey) (bytes ":/content")
  headers := [(authorization, accessToken)]
  body := body

def demoEnv : Env where
  parse _ := none
  clock now := now = demoTime
  reliable := True

/-- The key is absent and the value `7` is put. -/
def firstPut : Trace :=
  [⟨.gettimeofday, demoTime⟩, ⟨.httpClientNew .getFileLength, true⟩,
    ⟨.perform demoInfo, demoReply 404 []⟩, ⟨.alloc 5, true⟩, ⟨.gettimeofday, demoTime⟩,
    ⟨.httpClientNew .putFileFromBuffer, true⟩, ⟨.perform (demoPut (bytes "A") (record [7])), demoReply 201 []⟩]

theorem firstPut_run :
    Run (hivePutValue (some OneDrive.table) (some demoKey) (some [7]) 1 demoProcess) firstPut
      (0, demoProcess) := by
  iterate 7 refine .ask _ _ _ ?_
  exact .refl _

theorem firstPut_accepts (env : Env) (hclock : env.clock demoTime) :
    ∃ t, env.adverse.world.Accepts (demoServed none) firstPut t
      ∧ t.drive.items (keyPath demoKey) = some (record [7]) := by
  refine ⟨_, Env.accepts_local rfl hclock <| Env.accepts_local rfl nofun <|
    Env.accepts_perform ⟨fun _ => rfl, fun h => absurd h (by decide), fun _ => rfl⟩ (fun h => h) <|
    Env.accepts_local rfl nofun <| Env.accepts_local rfl hclock <| Env.accepts_local rfl nofun <|
    Env.accepts_perform rfl (fun h => h.put (by decide)) <| .nil _, ?_⟩
  exact Drive.put_items_self _ (keyPath demoKey) (record [7])

theorem put_uploads_first : puts (exchanges firstPut) = [record [7]] := by
  obtain ⟨t, haccepts, -⟩ := firstPut_accepts demoEnv rfl
  have hsmall : (demoServed none).drive.Small := demoServed_small nofun
  exact ((put_uploads_iff demoEnv hsmall firstPut_run haccepts).2 fun h => h.2 rfl).1

/-! The same put after `hive_set_access_token_expired`, on a key that holds the value `1`: the refresh before the look-up is answered 404, the one before the upload succeeds. -/

def lostPut : Trace :=
  refreshing (demoReply 404 []) ++ [⟨.alloc 5, true⟩] ++ refreshing (demoReply 200 tokenText)
    ++ accepting ++ [⟨.httpClientNew .putFileFromBuffer, true⟩,
      ⟨.perform (demoPut (bytes "B") (record [7])), demoReply 201 []⟩]

unseal growSize in
set_option maxRecDepth 10000 in
private theorem lostPut_run :
    Run (hivePutValue (some OneDrive.table) (some demoKey) (some [7]) 1 expiredProcess) lostPut
      (0, refreshedProcess) := by
  iterate 31 refine .ask _ _ _ ?_
  exact .refl _

def refreshEnv : Env where
  parse text := if tokenText.isPrefixOf text then some tokenJson else none
  clock now := now = demoTime
  reliable := True

theorem lostPut_accepts (s : Served) : ∃ t, refreshEnv.adverse.world.Accepts s lostPut t
    ∧ t.drive.items (keyPath demoKey) = some (record [7]) := by
  have hparse : some tokenJson = refreshEnv.adverse.parse tokenText := by
    have hprefix : tokenText.isPrefixOf tokenText = true :=
      List.isPrefixOf_iff_prefix.2 List.prefix_rfl
    simp only [Env.adverse, refreshEnv, hprefix, if_true]
  have hrefreshing : ∀ s reply rest t, refreshEnv.adverse.world.Accepts
      (Env.after s refreshRequest reply s.drive) rest t →
      refreshEnv.adverse.world.Accepts s (refreshing reply ++ rest) t := fun s reply rest t h =>
    Env.accepts_local rfl rfl <| Env.accepts_local rfl nofun <| Env.accepts_local rfl trivial <|
      Env.accepts_local rfl trivial <| Env.accepts_local rfl trivial <|
      Env.accepts_perform rfl (fun hsmall => hsmall) h
  have haccepting : ∀ s rest t, refreshEnv.adverse.world.Accepts s rest t →
      refreshEnv.adverse.world.Accepts s (accepting ++ rest) t := by
    intro s rest t h
    refine Env.accepts_local rfl nofun <| Env.accepts_local rfl nofun ?_
    refine Env.accepts_local rfl (.inl hparse) ?_
    iterate 3 refine Env.accepts_local rfl trivial ?_
    refine Env.accepts_local rfl rfl ?_
    iterate 9 refine Env.accepts_local rfl trivial ?_
    exact h
  have hput : ∀ s, ∃ t, refreshEnv.adverse.world.Accepts s
      [⟨.httpClientNew .putFileFromBuffer, true⟩,
        ⟨.perform (demoPut (bytes "B") (record [7])), demoReply 201 []⟩] t
      ∧ t.drive.items (keyPath demoKey) = some (record [7]) := fun s =>
    ⟨_, Env.accepts_local rfl nofun <|
      Env.accepts_perform rfl (fun hsmall => hsmall.put (by decide)) <| .nil _,
      Drive.put_items_self _ (keyPath demoKey) (record [7])⟩
  obtain ⟨t, ht, hitem⟩ := hput _
  refine ⟨t, ?_, hitem⟩
  rw [lostPut, List.append_assoc, List.append_assoc, List.append_assoc]
  exact hrefreshing _ _ _ _ <| Env.accepts_local rfl nofun <| hrefreshing _ _ _ _ <|
    haccepting _ _ _ ht

theorem put_forgets_values :
    ∃ t, Run (hivePutValue (some OneDrive.table) (some demoKey) (some [7]) 1 expiredProcess) lostPut
        (0, refreshedProcess)
      ∧ refreshEnv.adverse.world.Accepts (demoServed (some (record [1]))) lostPut t
      ∧ (demoServed (some (record [1]))).drive.Small
      ∧ puts (exchanges lostPut) = [record [7]]
      ∧ puts (exchanges lostPut)
        ≠ [(demoServed (some (record [1]))).drive.content (keyPath demoKey) ++ record [7]] := by
  obtain ⟨t, haccepts, -⟩ := lostPut_accepts _
  refine ⟨t, lostPut_run, haccepts, demoServed_small ?_, by decide, by decide⟩
  intro content hcontent
  obtain rfl := Option.mem_some.1 hcontent
  decide

/-! ### Claims of absence -/

/-- After a delete that returns success the item is gone, and before a `hive_get_values` that returns success without a callback there was nothing to deliver, unless the call began with a refused refresh. -/
theorem absence_iff (env : Env) {p : Process OneDriveConnect} {s : Served} {key : Bytes}
    (hsmall : s.drive.Small) :
    (∀ tr p' t, Run (hiveDeleteKey (some OneDrive.table) (some key) p) tr (0, p') →
      env.adverse.world.Accepts s tr t →
      (t.drive.items (keyPath key) = none
        ↔ ¬ (Refused (exchanges tr) ∧ s.drive.items (keyPath key) ≠ none))) ∧
    (∀ tr p' t, Run (hiveGetValues (some OneDrive.table) (some key) true p) tr (0, p') →
      env.adverse.world.Accepts s tr t → callbacks tr = [] →
      (s.drive.content (keyPath key) = []
        ↔ ¬ (Refused (exchanges tr) ∧ s.drive.content (keyPath key) ≠ []))) := by
  have hincident : ¬ env.adverse.reliable := fun h => h
  constructor
  · intro tr p' t hrun haccepts
    have hspec : Proc.wp env.adverse.world (hiveDeleteKey (some OneDrive.table) (some key))
        (fun rc _ t => rc = 0 → ∀ exchanged, t.history = s.history ++ exchanged →
          (t.drive.items (keyPath key) = none
            ↔ ¬ (Refused exchanged ∧ s.drive.items (keyPath key) ≠ none))) p s := by
      apply wp_hiveDeleteKey hincident
      · intro k p' t xs hk _ hremoved _ exchanged hhistory
        obtain rfl : key = k := Option.some.inj hk
        obtain rfl : exchanged = xs :=
          List.append_cancel_left (hhistory.symm.trans hremoved.history)
        rw [hremoved.items, Function.update_self]
        exact ⟨fun _ h => hremoved.not_refused h.1, fun _ => rfl⟩
      · intro k p' t xs hk _ hquiet hrefused _ exchanged hhistory
        obtain rfl : key = k := Option.some.inj hk
        obtain rfl : exchanged = xs := List.append_cancel_left (hhistory.symm.trans hquiet.history)
        rw [hquiet.items]
        exact ⟨fun h h' => h'.2 h, fun h => not_not.1 fun hne => h ⟨hrefused, hne⟩⟩
      · intro p' t h
        exact absurd h (by decide)
    exact Prog.wp_run hspec hrun haccepts rfl _ (Env.recorded haccepts).1
  · intro tr p' t hrun haccepts hsilent
    have hspec : Proc.wp env.adverse.world (hiveGetValues (some OneDrive.table) (some key) true)
        (fun rc _ t => rc = 0 → t.callbacks = s.callbacks → ∀ exchanged,
          t.history = s.history ++ exchanged →
          (s.drive.content (keyPath key) = []
            ↔ ¬ (Refused exchanged ∧ s.drive.content (keyPath key) ≠ []))) p s := by
      apply wp_hiveGetValues
      · intro k hk
        obtain rfl : key = k := Option.some.inj hk
        apply wp_getValues_claims hincident hsmall
        · intro p' t c cs hcallbacks
          rw [if_neg (by decide)]
          intro _ hsame
          rw [hcallbacks] at hsame
          exact absurd (congrArg List.length hsame) (by simp)
        · intro p' t xs hasked hnil
          rw [if_neg (by decide)]
          intro _ _ exchanged _
          exact ⟨fun _ h => h.2 hnil, fun _ => hnil⟩
        · intro p' t xs hquiet hrefused
          rw [if_neg (by decide)]
          intro _ _ exchanged hhistory
          obtain rfl : exchanged = xs := List.append_cancel_left (hhistory.symm.trans hquiet.history)
          exact ⟨fun h h' => h'.2 h, fun h => not_not.1 fun hne => h ⟨hrefused, hne⟩⟩
        · intro rc p' t hrc
          rw [if_pos hrc]
          intro h
          exact absurd h (by decide)
      · intro p' h
        exact absurd h (by decide)
    obtain ⟨hhistory, hcallbacks⟩ := Env.recorded haccepts
    rw [hsilent, List.append_nil] at hcallbacks
    exact Prog.wp_run hspec hrun haccepts rfl hcallbacks _ hhistory

def demoDelete : Request where
  method := .delete
  url := .item (keyPath demoKey) (bytes ":")
  headers := [(authorization, bytes "A")]

def firstDelete : Trace :=
  [⟨.gettimeofday, demoTime⟩, ⟨.httpClientNew .deleteFile, true⟩,
    ⟨.perform demoDelete, demoReply 204 []⟩]

theorem absence_first :
    ∃ t, demoEnv.adverse.world.Accepts (demoServed (some (record [1]))) firstDelete t
      ∧ t.drive.items (keyPath demoKey) = none := by
  have haccepts : ∃ t, demoEnv.adverse.world.Accepts (demoServed (some (record [1]))) firstDelete t :=
    ⟨_, Env.accepts_local rfl rfl <| Env.accepts_local rfl nofun <|
      Env.accepts_perform ⟨fun h => absurd h (by decide), fun _ => rfl, .inr rfl⟩
        (fun hsmall => hsmall.remove) <| .nil _⟩
  obtain ⟨t, haccepts⟩ := haccepts
  have hsmall : (demoServed (some (record [1]))).drive.Small := by
    apply demoServed_small
    intro content hcontent
    obtain rfl := Option.mem_some.1 hcontent
    decide
  have hrun : Run (hiveDeleteKey (some OneDrive.table) (some demoKey) demoProcess) firstDelete
      (0, demoProcess) := by
    iterate 3 refine .ask _ _ _ ?_
    exact .refl _
  refine ⟨t, haccepts, ((absence_iff demoEnv hsmall).1 _ _ _ hrun haccepts).2 fun h => ?_⟩
  obtain ⟨x, hx, htoken, -⟩ := h.1
  obtain rfl := Option.some.inj hx
  cases htoken

/-- A refused refresh makes both calls succeed, and the value is still there. -/
theorem absence_of_refused_refresh :
    ∃ t, Run (hiveDeleteKey (some OneDrive.table) (some demoKey) expiredProcess)
        (refreshing (demoReply 404 [])) (0, expiredProcess)
      ∧ Run (hiveGetValues (some OneDrive.table) (some demoKey) true expiredProcess)
        (refreshing (demoReply 404 [])) (0, expiredProcess)
      ∧ demoEnv.adverse.world.Accepts (demoServed (some (record [1])))
        (refreshing (demoReply 404 [])) t
      ∧ callbacks (refreshing (demoReply 404 [])) = []
      ∧ (demoServed (some (record [1]))).drive.items (keyPath demoKey) = some (record [1])
      ∧ t.drive.items (keyPath demoKey) = some (record [1]) := by
  refine ⟨_, ?_, ?_, Env.accepts_local rfl rfl <| Env.accepts_local rfl nofun <|
    Env.accepts_local rfl trivial <| Env.accepts_local rfl trivial <|
    Env.accepts_local rfl trivial <| Env.accepts_perform rfl (fun hsmall => hsmall) <| .nil _,
    rfl, rfl, rfl⟩
  · iterate 6 refine .ask _ _ _ ?_
    exact .refl _
  · iterate 6 refine .ask _ _ _ ?_
    exact .refl _

end HiveSdk
