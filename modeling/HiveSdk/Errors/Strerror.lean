import HiveSdk.Model.Strerror

/-!
# Describing an error

An encoded error decodes to its facility and its code. Its text stays inside the buffer and is terminated there, with one exception: a buffer that is exactly as long as the description of the facility is overrun by the terminator, since the first of the two steps compares with `<` where the second compares with `<=`.
-/

namespace HiveSdk

/-! ### Areas -/

namespace Area

variable {a b : Area} {pos len i : Nat} {data text : Bytes}

theorem mem_written_store : i ∈ (a.store pos data).written ↔ (pos ≤ i ∧ i < pos + data.length) ∨ i ∈ a.written := by
  rw [store, List.mem_append, List.mem_range'_1]

theorem store_bytes (hi : i < data.length) : (a.store pos data).bytes (pos + i) = data[i] := by
  simp only [store]
  rw [if_pos ⟨Nat.le_add_right _ _, by omega⟩, Nat.add_sub_cancel_left, List.getD_eq_getElem _ _ hi]

theorem store_bytes_of_lt (hi : i < pos) : (a.store pos data).bytes i = a.bytes i :=
  if_neg fun h => absurd h.1 (not_le.2 hi)

theorem strcpy_terminator : (a.strcpy pos text).bytes (pos + text.length) = 0 := by
  have hlength : text.length < (text ++ [(0 : UInt8)]).length := by
    rw [List.length_append]
    exact Nat.lt_succ_self _
  rw [strcpy, store_bytes hlength, List.getElem_append_right (Nat.le_refl _)]
  simp

theorem read_append (n m : Nat) : a.read (n + m) = a.read n ++ (List.range' n m).map a.bytes := by
  rw [read, List.range_eq_range', ← List.range'_append_1, List.map_append, read, List.range_eq_range',
    Nat.zero_add]

theorem read_strcpy : (a.strcpy 0 text).read text.length = text := by
  apply List.ext_getElem
  · rw [read, List.length_map, List.length_range]
  · intro i hi hi'
    have hlength : i < (text ++ [(0 : UInt8)]).length := by
      rw [List.length_append]
      omega
    have hstored : (a.strcpy 0 text).bytes (0 + i) = (text ++ [(0 : UInt8)])[i] := store_bytes hlength
    rw [Nat.zero_add, List.getElem_append_left hi'] at hstored
    simp only [read, List.getElem_map, List.getElem_range]
    exact hstored

/-- The first `len` bytes hold a C string that starts with `text`. -/
structure Holds (a : Area) (len : Nat) (text : Bytes) : Prop where
  terminated : 0 ∈ a.read len
  starts : text <+: cString (a.read len)

theorem Holds.of_read (htext : 0 ∉ text) (hread : a.read text.length = text)
    (hzero : ∃ i, text.length ≤ i ∧ i < len ∧ a.bytes i = 0) : a.Holds len text where
  terminated := by
    obtain ⟨i, -, hi, hbyte⟩ := hzero
    exact List.mem_map.2 ⟨i, List.mem_range.2 hi, hbyte⟩
  starts := by
    obtain ⟨i, hle, hi, -⟩ := hzero
    obtain ⟨m, rfl⟩ := Nat.exists_eq_add_of_le (hle.trans hi.le)
    rw [read_append, hread, cString_append htext]
    exact List.prefix_append _ _

/-! ### What a facility does to the rest of the buffer -/

/-- Only the rest of the buffer has been written. -/
structure Within (a b : Area) (pos len : Nat) : Prop where
  before : ∀ i ∈ a.written, i ∈ b.written
  written : ∀ i ∈ b.written, i ∈ a.written ∨ (pos ≤ i ∧ i < pos + len)
  kept : ∀ i < pos, b.bytes i = a.bytes i

theorem Within.refl (a : Area) (pos len : Nat) : Within a a pos len where
  before _ h := h
  written _ h := .inl h
  kept _ _ := rfl

theorem Within.store (h : data.length ≤ len) : Within a (a.store pos data) pos len where
  before i hi := mem_written_store.2 (.inr hi)
  written i hi := by
    rcases mem_written_store.1 hi with hnew | hold
    · exact .inr ⟨hnew.1, by omega⟩
    · exact .inl hold
  kept _ hi := store_bytes_of_lt hi

/-- A zero stands in the rest of the buffer. -/
def Ends (a : Area) (pos len : Nat) : Prop := ∃ i, pos ≤ i ∧ i < pos + len ∧ a.bytes i = 0

end Area

/-- A function that respects the length it is given: it writes nowhere else, and leaves a string there when it does not fail. -/
structure Respects (f : StrerrorFunc) : Prop where
  within : ∀ (errcode pos len : Nat) (a : Area), a.Within (f errcode pos len a).2 pos len
  ends : ∀ (errcode pos len : Nat) (a : Area), 0 ≤ (f errcode pos len a).1 → a.Ends pos len →
    (f errcode pos len a).2.Ends pos len

/-- What is relied on of `strerror_r`: it writes no more bytes than it is given, and a zero among them unless it fails or writes nothing. -/
structure SystemTexts.Documented (texts : SystemTexts) : Prop where
  length_le : ∀ errcode len, (texts.strerrorR errcode len).2.length ≤ len
  terminated : ∀ errcode len, 0 ≤ (texts.strerrorR errcode len).1 →
    (texts.strerrorR errcode len).2 = [] ∨ 0 ∈ (texts.strerrorR errcode len).2

section
variable {a : Area} {pos len errcode : Nat} {text : Bytes}

private theorem strcpy_within (h : text.length < len) : a.Within (a.strcpy pos text) pos len := by
  apply Area.Within.store
  rw [List.length_append]
  exact h

private theorem strcpy_ends (h : text.length < len) : (a.strcpy pos text).Ends pos len :=
  ⟨pos + text.length, Nat.le_add_right _ _, by omega, Area.strcpy_terminator⟩

private theorem not_nonneg_general {code : Nat} (hcode : code < 2 ^ 24) : ¬ 0 ≤ cInt (hiveGeneralError code) :=
  not_le.2 (cInt_hiveMkError_neg .general hcode)

theorem respects_tableError (codes : List ErrorDesc) : Respects (tableError codes) := by
  have hneg : ¬ 0 ≤ cInt (hiveGeneralError HiveErr.invalidArgs) := not_nonneg_general (by decide)
  constructor
  · intro errcode pos len a
    rw [tableError]
    split
    · exact .refl ..
    · split
      · exact .refl ..
      · exact strcpy_within (not_le.1 ‹_›)
  · intro errcode pos len a hrc _
    rw [tableError] at hrc ⊢
    split at hrc
    · exact absurd hrc hneg
    · split at hrc
      · exact absurd hrc hneg
      · rw [if_neg ‹_›]
        exact strcpy_ends (not_le.1 ‹_›)

theorem respects_textError (strerror : Nat → Option Bytes) : Respects (textError strerror) := by
  have hneg : ¬ 0 ≤ cInt (hiveGeneralError HiveErr.invalidArgs) := not_nonneg_general (by decide)
  have hneg' : ¬ 0 ≤ cInt (hiveGeneralError HiveErr.bufferTooSmall) := not_nonneg_general (by decide)
  constructor
  · intro errcode pos len a
    rw [textError]
    split
    · exact .refl ..
    · split
      · exact .refl ..
      · exact strcpy_within (not_le.1 ‹_›)
  · intro errcode pos len a hrc _
    rw [textError] at hrc ⊢
    split at hrc
    · exact absurd hrc hneg
    · split at hrc
      · exact absurd hrc hneg'
      · rw [if_neg ‹_›]
        exact strcpy_ends (not_le.1 ‹_›)

theorem respects_systemError {texts : SystemTexts} (htexts : texts.Documented) : Respects (systemError texts) where
  within errcode pos len a := Area.Within.store (htexts.length_le errcode len)
  ends errcode pos len a := by
    intro hrc hends
    have hsys : ¬ 0 ≤ cInt (hiveSysError HiveErr.invalidArgs) :=
      not_le.2 (cInt_hiveMkError_neg .sys (by decide))
    have hok : 0 ≤ (texts.strerrorR errcode len).1 := by
      by_contra hneg
      have hfailed : (systemError texts errcode pos len a).1 = cInt (hiveSysError HiveErr.invalidArgs) :=
        if_pos (not_le.1 hneg)
      rw [hfailed] at hrc
      exact hsys hrc
    rcases htexts.terminated errcode len hok with hnothing | hzero
    · have hsame : ∀ i, (systemError texts errcode pos len a).2.bytes i = a.bytes i := by
        intro i
        show (a.store pos (texts.strerrorR errcode len).2).bytes i = a.bytes i
        rw [hnothing]
        exact if_neg fun h => by
          simp only [List.length_nil] at h
          omega
      obtain ⟨i, hle, hi, hbyte⟩ := hends
      exact ⟨i, hle, hi, (hsame i).trans hbyte⟩
    · obtain ⟨i, hi, hbyte⟩ := List.mem_iff_getElem.1 hzero
      have hlength := htexts.length_le errcode len
      exact ⟨pos + i, Nat.le_add_right _ _, by omega, (Area.store_bytes hi).trans hbyte⟩

/-- All facilities respect the length they are given, and their descriptions are C strings. -/
theorem respects_facilityCodes {texts : SystemTexts} (htexts : texts.Documented) {facility : FacilityDesc}
    (h : facility ∈ facilityCodes texts) :
    0 ∉ facility.desc ∧ ∀ errstring, facility.errstring = some errstring → Respects errstring := by
  simp only [facilityCodes, List.mem_cons, List.not_mem_nil, or_false] at h
  rcases h with rfl | rfl | rfl | rfl | rfl | rfl | rfl
  · have hdesc : 0 ∉ bytes "[General] " := by decide
    refine ⟨hdesc, fun errstring herr => ?_⟩
    cases herr
    exact respects_tableError _
  · have hdesc : 0 ∉ bytes "[System] " := by decide
    refine ⟨hdesc, fun errstring herr => ?_⟩
    cases herr
    exact respects_systemError htexts
  · exact ⟨by decide, nofun⟩
  · exact ⟨by decide, nofun⟩
  · have hdesc : 0 ∉ bytes "[curl] " := by decide
    refine ⟨hdesc, fun errstring herr => ?_⟩
    cases herr
    exact respects_textError _
  · have hdesc : 0 ∉ bytes "[curlu] " := by decide
    refine ⟨hdesc, fun errstring herr => ?_⟩
    cases herr
    exact respects_textError _
  · have hdesc : 0 ∉ bytes "[httpstat] " := by decide
    refine ⟨hdesc, fun errstring herr => ?_⟩
    cases herr
    exact respects_tableError _

end

/-! ### Decoding -/

theorem facilityBits_eq (errnum : BitVec 32) : facilityBits errnum = errnum.toNat / 2 ^ 24 % 16 := by
  have hshift : errnum.sshiftRight 24 &&& 0x0F#32 = (errnum >>> 24) &&& 0x0F#32 := by
    apply BitVec.eq_of_getLsbD_eq
    intro i hi
    by_cases hlow : i < 4
    · have hbit : 24 + i < 32 := by omega
      have hwidth : ¬ 32 ≤ i := by omega
      simp [BitVec.getLsbD_sshiftRight, BitVec.getLsbD_ushiftRight, hbit, hwidth]
    · have hmask : (0x0F#32).getLsbD i = false := by
        have hsmall : 0x0F < 2 ^ i := lt_of_lt_of_le (by decide) (Nat.pow_le_pow_right (by decide) (not_lt.1 hlow))
        rw [BitVec.getLsbD_ofNat, Nat.testBit_lt_two_pow hsmall, Bool.and_false]
      rw [BitVec.getLsbD_and, BitVec.getLsbD_and, hmask, Bool.and_false, Bool.and_false]
  have hmask : (0x0F#32).toNat = 2 ^ 4 - 1 := by decide
  rw [facilityBits, hshift, BitVec.toNat_and, BitVec.toNat_ushiftRight, hmask, Nat.and_two_pow_sub_one_eq_mod,
    Nat.shiftRight_eq_div_pow]

theorem errcodeBits_eq (errnum : BitVec 32) : errcodeBits errnum = errnum.toNat % 2 ^ 24 := by
  have hmask : (0x00FFFFFF#32).toNat = 2 ^ 24 - 1 := by decide
  rw [errcodeBits, BitVec.toNat_and, hmask, Nat.and_two_pow_sub_one_eq_mod]

/-- An encoded error as it is stored in an `int`. -/
def storedError (facility : Facility) (code : Nat) : BitVec 32 := BitVec.ofNat 32 (hiveMkError facility code)

theorem toNat_storedError (facility : Facility) {code : Nat} (hcode : code < 2 ^ 24) :
    (storedError facility code).toNat = 2 ^ 31 + facility.code * 2 ^ 24 + code := by
  have hrange := facility.code_range
  rw [storedError, BitVec.toNat_ofNat, hiveMkError_eq facility hcode]
  omega

theorem storedError_decodes (facility : Facility) {code : Nat} (hcode : code < 2 ^ 24) :
    (storedError facility code).toInt < 0 ∧ facilityBits (storedError facility code) = facility.code
      ∧ errcodeBits (storedError facility code) = code := by
  have hrange := facility.code_range
  have hvalue := toNat_storedError facility hcode
  refine ⟨?_, ?_, ?_⟩
  · rw [BitVec.toInt_eq_toNat_cond, hvalue]
    split <;> omega
  · rw [facilityBits_eq, hvalue]
    omega
  · rw [errcodeBits_eq, hvalue]
    omega

/-! ### The whole text -/

/-- What is asked of `hive_get_strerror` for a buffer of `len` bytes: it writes inside the buffer, and what it returns is a string there that starts with the description of the facility. -/
structure Described (texts : SystemTexts) (errnum : BitVec 32) (bytes : Nat → UInt8) (len : Nat) : Prop where
  written : ∀ a, (hiveGetStrerror texts errnum (some (Area.untouched bytes)) len).2 = some a →
    ∀ i ∈ a.written, i < len
  holds : ∀ a, hiveGetStrerror texts errnum (some (Area.untouched bytes)) len = (.ok (), some a) →
    ∃ facility, facilityOf texts errnum = some facility ∧ a.Holds len facility.desc

theorem mem_facilityCodes {texts : SystemTexts} {errnum : BitVec 32} {facility : FacilityDesc}
    (h : facilityOf texts errnum = some facility) : facility ∈ facilityCodes texts := by
  rw [facilityOf] at h
  split at h
  · cases h
  · exact List.mem_of_getElem? h

section
variable {texts : SystemTexts} {errnum : BitVec 32} {bytes : Nat → UInt8} {len : Nat} {facility : FacilityDesc}

private theorem hiveGetStrerror_eq (hfacility : facilityOf texts errnum = some facility)
    (hroom : ¬ len < facility.desc.length) (a : Area) :
    hiveGetStrerror texts errnum (some a) len = match facility.errstring with
      | none => (.ok (), some (a.strcpy 0 facility.desc))
      | some errstring =>
          let (rc, b) := errstring (errcodeBits errnum) facility.desc.length (len - facility.desc.length)
            (a.strcpy 0 facility.desc)
          if rc < 0 then (.error rc, some b) else (.ok (), some b) := by
  cases herr : facility.errstring with
  | none => simp only [hiveGetStrerror, hfacility, if_neg hroom, herr]
  | some errstring => simp only [hiveGetStrerror, hfacility, if_neg hroom, herr]

theorem mem_written_desc {i : Nat} :
    i ∈ ((Area.untouched bytes).strcpy 0 facility.desc).written ↔ i < facility.desc.length + 1 := by
  rw [Area.strcpy, Area.mem_written_store, List.length_append, List.length_singleton, Nat.zero_add]
  simp [Area.untouched]

/-- A buffer that is longer than the description is respected. -/
private theorem described_of_lt (htexts : texts.Documented) (hfacility : facilityOf texts errnum = some facility)
    (hlen : facility.desc.length < len) : Described texts errnum bytes len := by
  obtain ⟨hdesc, hrespects⟩ := respects_facilityCodes htexts (mem_facilityCodes hfacility)
  have heq := hiveGetStrerror_eq hfacility (not_lt.2 hlen.le) (Area.untouched bytes)
  have hcopied : ∀ i ∈ ((Area.untouched bytes).strcpy 0 facility.desc).written, i < len := by
    intro i hi
    have hnew := mem_written_desc.1 hi
    omega
  have hread : ((Area.untouched bytes).strcpy 0 facility.desc).read facility.desc.length = facility.desc :=
    Area.read_strcpy
  have hends : ((Area.untouched bytes).strcpy 0 facility.desc).Ends facility.desc.length
      (len - facility.desc.length) := by
    have hterminator : ((Area.untouched bytes).strcpy 0 facility.desc).bytes (0 + facility.desc.length) = 0 :=
      Area.strcpy_terminator
    rw [Nat.zero_add] at hterminator
    exact ⟨_, Nat.le_refl _, by omega, hterminator⟩
  generalize (Area.untouched bytes).strcpy 0 facility.desc = copied at hcopied hread hends heq
  cases herr : facility.errstring with
  | none =>
      rw [herr] at heq
      dsimp only at heq
      constructor
      · intro a ha
        rw [heq] at ha
        cases ha
        exact hcopied
      · intro a ha
        rw [heq] at ha
        cases ha
        obtain ⟨i, hle, hi, hzero⟩ := hends
        exact ⟨facility, hfacility, .of_read hdesc hread ⟨i, hle, by omega, hzero⟩⟩
  | some errstring =>
      rw [herr] at heq
      dsimp only at heq
      have hwithin := (hrespects errstring herr).within (errcodeBits errnum) facility.desc.length
        (len - facility.desc.length) copied
      have hended := (hrespects errstring herr).ends (errcodeBits errnum) facility.desc.length
        (len - facility.desc.length) copied
      generalize errstring (errcodeBits errnum) facility.desc.length (len - facility.desc.length) copied = result
        at heq hwithin hended
      obtain ⟨rc, b⟩ := result
      dsimp only at heq hwithin hended
      constructor
      · intro a ha i hi
        have hsame : a = b := by
          rw [heq] at ha
          split at ha <;> exact (Option.some.inj ha).symm
        rcases hwithin.written i (hsame ▸ hi) with hold | hnew
        · exact hcopied i hold
        · omega
      · intro a ha
        rw [heq] at ha
        split at ha
        · cases ha
        · obtain rfl : b = a := Option.some.inj (Prod.mk.inj ha).2
          obtain ⟨i, hle, hi, hzero⟩ := hended (not_lt.1 ‹_›) hends
          have hsame : b.read facility.desc.length = copied.read facility.desc.length :=
            List.map_congr_left fun j hj => hwithin.kept j (List.mem_range.1 hj)
          exact ⟨facility, hfacility, 
            .of_read hdesc (hsame.trans hread) ⟨i, hle, by omega, hzero⟩⟩

/-- The terminator of the description goes behind a buffer that is just as long. -/
private theorem not_described_of_eq (htexts : texts.Documented)
    (hfacility : facilityOf texts errnum = some facility) :
    ¬ Described texts errnum bytes facility.desc.length := by
  intro h
  have hrespects := (respects_facilityCodes htexts (mem_facilityCodes hfacility)).2
  have heq := hiveGetStrerror_eq hfacility (lt_irrefl _) (Area.untouched bytes)
  have hbehind : facility.desc.length ∈ ((Area.untouched bytes).strcpy 0 facility.desc).written :=
    mem_written_desc.2 (Nat.lt_succ_self _)
  obtain ⟨a, ha, hmem⟩ : ∃ a, (hiveGetStrerror texts errnum (some (Area.untouched bytes))
      facility.desc.length).2 = some a ∧ facility.desc.length ∈ a.written := by
    rw [heq]
    cases herr : facility.errstring with
    | none => exact ⟨_, rfl, hbehind⟩
    | some errstring =>
        have hbefore := ((hrespects errstring herr).within (errcodeBits errnum) facility.desc.length
          (facility.desc.length - facility.desc.length) _).before _ hbehind
        refine ⟨_, ?_, hbefore⟩
        dsimp only
        split <;> rfl
  exact absurd (h.written a ha _ hmem) (lt_irrefl _)

/-- Nothing is written where there is no facility, or no room for its description. -/
private theorem described_of_refused {e : Int}
    (h : hiveGetStrerror texts errnum (some (Area.untouched bytes)) len
      = (.error e, some (Area.untouched bytes))) : Described texts errnum bytes len where
  written a ha i hi := by
    rw [h] at ha
    cases ha
    exact absurd hi List.not_mem_nil
  holds a ha := by
    rw [h] at ha
    cases ha

/-- A buffer is respected unless it is exactly as long as the description of the facility. -/
theorem described_iff (htexts : texts.Documented) :
    Described texts errnum bytes len
      ↔ ∀ facility, facilityOf texts errnum = some facility → len ≠ facility.desc.length := by
  cases hfacility : facilityOf texts errnum with
  | none =>
      refine iff_of_true (described_of_refused (e := cInt (hiveGeneralError HiveErr.invalidArgs)) ?_) nofun
      simp only [hiveGetStrerror, hfacility]
  | some facility =>
      constructor
      · intro h facility' hsame hlen
        cases hsame
        exact not_described_of_eq htexts hfacility (hlen ▸ h)
      · intro hne
        rcases Nat.lt_or_gt_of_ne (hne facility rfl) with hshort | hlong
        · refine described_of_refused (e := cInt (hiveGeneralError HiveErr.bufferTooSmall)) ?_
          simp only [hiveGetStrerror, hfacility, if_pos hshort]
        · exact described_of_lt htexts hfacility hlong

end

/-- Every encoded error is a negative `int` that decodes to its facility and its code; and a buffer is respected, and holds a string that starts with the description of the facility when it is returned, if and only if it is not exactly as long as that description. -/
theorem strerror_described_iff {texts : SystemTexts} (htexts : texts.Documented) :
    (∀ (facility : Facility) (code : Nat), code < 2 ^ 24 → (storedError facility code).toInt < 0
        ∧ facilityBits (storedError facility code) = facility.code
        ∧ errcodeBits (storedError facility code) = code)
      ∧ ∀ (errnum : BitVec 32) (bytes : Nat → UInt8) (len : Nat), Described texts errnum bytes len
        ↔ ∀ facility, facilityOf texts errnum = some facility → len ≠ facility.desc.length :=
  ⟨fun facility _ hcode => storedError_decodes facility hcode, fun _ _ _ => described_iff htexts⟩

/-! A C library that knows one error, and a buffer of ten bytes for an argument that is invalid. -/

def demoTexts : SystemTexts where
  strerrorR errcode len :=
    let text := if errcode = 1 then bytes "Operation not permitted" else bytes "Unknown error"
    if text.length < len then (if errcode = 1 then 0 else 22, text ++ [0]) else (34, [])
  curlEasyStrerror _ := some (bytes "Unknown error")

theorem demoTexts_documented : demoTexts.Documented where
  length_le errcode len := by
    simp only [demoTexts]
    generalize (if errcode = 1 then bytes "Operation not permitted" else bytes "Unknown error") = text
    split
    · rw [List.length_append]
      exact Nat.succ_le_of_lt ‹_›
    · exact Nat.zero_le _
  terminated errcode len _ := by
    simp only [demoTexts]
    generalize (if errcode = 1 then bytes "Operation not permitted" else bytes "Unknown error") = text
    split
    · exact .inr (List.mem_append_right text List.mem_cons_self)
    · exact .inl rfl

theorem strerror_described_system :
    Described demoTexts (storedError .sys 1) (fun _ => 0xFF) 64 := by
  have hiff := (strerror_described_iff demoTexts_documented).2 (storedError .sys 1) (fun _ => 0xFF) 64
  apply hiff.2
  intro facility hfacility
  obtain rfl : facility = ⟨bytes "[System] ", some (systemError demoTexts)⟩ := (Option.some.inj hfacility).symm
  decide

/-- The terminator goes behind the buffer. -/
theorem strerror_overruns : ∃ a, (hiveGetStrerror demoTexts (storedError .general HiveErr.invalidArgs)
    (some (Area.untouched fun _ => 0xFF)) 10).2 = some a ∧ 10 ∈ a.written
    ∧ ¬ Described demoTexts (storedError .general HiveErr.invalidArgs) (fun _ => 0xFF) 10 := by
  refine ⟨(Area.untouched fun _ => 0xFF).strcpy 0 (bytes "[General] "), rfl, by decide, fun h => ?_⟩
  have hbehind : 10 < 10 := h.written _ rfl 10 (by decide)
  exact absurd hbehind (lt_irrefl 10)

end HiveSdk
